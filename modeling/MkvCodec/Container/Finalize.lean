import MkvCodec.Container.Lemmas.Rewrite

/-!
# What `finalize_container_doc_type` leaves behind

The copy loop takes every read that delivers less than it was asked for as the end of the file, and a container that was
replaced stays replaced when its last check fails.
-/

namespace MkvCodec.Container

open Prefixed

/-! ## The copy loop -/

/-- The turns of the copy loop: what each read delivers, and how much of it the write puts out. -/
def turns (copies : Nat → ChunkIo) (turn : Nat) (left : List UInt8) : List (List UInt8 × Nat) :=
  let count := min (copies turn).delivers (min bufferSize left.length)
  (left.take count, (copies turn).writes) ::
    if count = bufferSize then turns copies (turn + 1) (left.drop count) else []
termination_by left.length
decreasing_by
  simp only [List.length_drop, bufferSize] at *
  omega

/-- Every read of the loop, up to the end of the file, fills the buffer or delivers what is left. -/
def Delivers (copies : Nat → ChunkIo) (turn length : Nat) : Prop :=
  ∀ later, later * bufferSize < length → min bufferSize (length - later * bufferSize) ≤ (copies (turn + later)).delivers

theorem delivers_full {copies : Nat → ChunkIo} {turn length : Nat} (hfull : bufferSize ≤ (copies turn).delivers)
    (hlength : bufferSize ≤ length) : Delivers copies turn length ↔ Delivers copies (turn + 1) (length - bufferSize) := by
  constructor
  · intro h later hlater
    have hnext := h (later + 1) (by rw [Nat.add_mul]; omega)
    rw [show turn + (later + 1) = turn + 1 + later by omega, Nat.add_mul] at hnext
    omega
  · intro h later hlater
    cases later with
    | zero => rw [Nat.add_zero]; omega
    | succ later =>
        rw [Nat.add_mul] at hlater ⊢
        have hnext := h later (by omega)
        rw [show turn + (later + 1) = turn + 1 + later by omega]
        omega

theorem delivers_last {copies : Nat → ChunkIo} {turn length : Nat}
    (hlast : min (copies turn).delivers (min bufferSize length) ≠ bufferSize) :
    Delivers copies turn length ↔ length ≤ min (copies turn).delivers (min bufferSize length) := by
  have hpos : 0 < bufferSize := by decide
  constructor
  · intro h
    rcases Nat.eq_zero_or_pos length with rfl | hlength
    · exact Nat.zero_le _
    · have hfirst := h 0 (by omega)
      rw [Nat.add_zero] at hfirst
      omega
  · intro h later hlater
    -- what is left is shorter than the buffer, so that there is no other turn
    obtain rfl : later = 0 := by
      by_contra hne
      have := Nat.le_mul_of_pos_left bufferSize (Nat.pos_of_ne_zero hne)
      omega
    rw [Nat.add_zero]
    omega

theorem flatMap_turns_eq_iff (copies : Nat → ChunkIo) (turn : Nat) (left : List UInt8) :
    (turns copies turn left).flatMap Prod.fst = left ↔ Delivers copies turn left.length := by
  induction turn, left using turns.induct copies with
  | case1 turn left count ih =>
      rw [turns, List.flatMap_cons]
      by_cases hcount : count = bufferSize
      · simp only [count] at hcount ih ⊢
        have hrest := ih hcount
        rw [hcount, List.length_drop] at hrest
        rw [if_pos hcount, hcount, delivers_full (by omega) (by omega), ← hrest]
        constructor
        · intro h
          exact List.append_cancel_left (h.trans (List.take_append_drop bufferSize left).symm)
        · intro h
          rw [h, List.take_append_drop]
      · simp only [count] at hcount ⊢
        rw [if_neg hcount, delivers_last hcount, List.flatMap_nil, List.append_nil]
        constructor
        · intro h
          have hlength := congrArg List.length h
          rw [List.length_take] at hlength
          omega
        · exact List.take_of_length_le

/-- A write for each chunk. -/
def Output.writeAll (output : Output) (chunks : List (List UInt8 × Nat)) : Output :=
  chunks.foldl (fun output chunk => output.write chunk.2 chunk.1) output

theorem copyBody_eq (copies : Nat → ChunkIo) (turn : Nat) (left : List UInt8) (output : Output) :
    copyBody copies turn left output = output.writeAll (turns copies turn left) := by
  induction turn, left using turns.induct copies generalizing output with
  | case1 turn left count ih =>
      rw [copyBody, turns, Output.writeAll, List.foldl_cons]
      by_cases hcount : count = bufferSize
      · simp only [count] at hcount ih ⊢
        rw [if_pos hcount, if_pos hcount, ih hcount]
        rfl
      · simp only [count] at hcount ⊢
        rw [if_neg hcount, if_neg hcount, List.foldl_nil]

theorem Output.write_good {output : Output} (hgood : output.good = true) (writes : Nat) (bytes : List UInt8) :
    output.write writes bytes = ⟨output.content ++ bytes.take writes, decide (bytes.length ≤ writes)⟩ :=
  if_pos hgood

/-- Writes leave a good stream good exactly when each takes all its bytes. -/
theorem Output.writeAll_good (output : Output) (chunks : List (List UInt8 × Nat)) :
    (output.writeAll chunks).good = true ↔ output.good = true ∧ ∀ chunk ∈ chunks, chunk.1.length ≤ chunk.2 := by
  induction chunks generalizing output with
  | nil => simp [writeAll]
  | cons chunk chunks ih =>
      have hcons : output.writeAll (chunk :: chunks) = (output.write chunk.2 chunk.1).writeAll chunks := rfl
      rw [hcons, ih]
      cases hout : output.good with
      | false => simp [write, hout]
      | true => simp [write_good hout]

theorem Output.writeAll_content {output : Output} {chunks : List (List UInt8 × Nat)}
    (h : (output.writeAll chunks).good = true) :
    (output.writeAll chunks).content = output.content ++ chunks.flatMap Prod.fst := by
  induction chunks generalizing output with
  | nil => simp [writeAll]
  | cons chunk chunks ih =>
      obtain ⟨hgood, hall⟩ := (output.writeAll_good _).mp h
      have hle := hall chunk List.mem_cons_self
      have hcons : output.writeAll (chunk :: chunks) = (output.write chunk.2 chunk.1).writeAll chunks := rfl
      rw [hcons] at h ⊢
      rw [ih h, write_good hgood, List.take_of_length_le hle, List.flatMap_cons, List.append_assoc]

namespace FinalizeIo

/-- The turns of the loop in a call. -/
def chunks (io : FinalizeIo) (body : List UInt8) : List (List UInt8 × Nat) :=
  if io.seeks then turns io.copies 0 body else []

/-- What the reads of the loop deliver in a call. -/
def delivered (io : FinalizeIo) (body : List UInt8) : List UInt8 := (io.chunks body).flatMap Prod.fst

/-- The loop gets to the end of the file. -/
def DeliversAll (io : FinalizeIo) (body : List UInt8) : Prop :=
  body ≠ [] → io.seeks = true ∧ Delivers io.copies 0 body.length

theorem chunks_of_seeks {io : FinalizeIo} {body : List UInt8} (h : io.seeks = true) :
    io.chunks body = turns io.copies 0 body := if_pos h

theorem delivered_eq_iff {io : FinalizeIo} {body : List UInt8} : io.delivered body = body ↔ io.DeliversAll body := by
  by_cases hseeks : io.seeks = true
  · rw [delivered, chunks_of_seeks hseeks, flatMap_turns_eq_iff, DeliversAll]
    constructor
    · exact fun h _ => ⟨hseeks, h⟩
    · intro h
      cases body with
      | nil => exact fun later hlater => absurd hlater (Nat.not_lt_zero _)
      | cons => exact (h nofun).2
  · rw [delivered, chunks, if_neg hseeks, DeliversAll]
    constructor
    · exact fun h hne => absurd h.symm hne
    · intro h
      by_contra hne
      exact hseeks (h fun hnil => hne (by rw [hnil]; rfl)).1

/-- Every write of the temporary file is complete. -/
structure Writes (io : FinalizeIo) (headerLength : Nat) (body : List UInt8) : Prop where
  header : headerLength ≤ io.headerWrites
  body : ∀ chunk ∈ io.chunks body, chunk.1.length ≤ chunk.2
  flushes : io.flushes = true
  closes : io.closes = true

variable (io : FinalizeIo) (header body : List UInt8)

theorem copy_eq : io.copy header body =
    ⟨(Output.writeAll ⟨[], true⟩ ((header, io.headerWrites) :: io.chunks body)).content,
      (Output.writeAll ⟨[], true⟩ ((header, io.headerWrites) :: io.chunks body)).good && io.flushes && io.closes⟩ := by
  by_cases hseeks : io.seeks = true
  · simp only [copy, chunks, if_pos hseeks, copyBody_eq]
    rfl
  · simp only [copy, chunks, if_neg hseeks]
    rfl

theorem copy_good : (io.copy header body).good = true ↔ io.Writes header.length body := by
  simp only [copy_eq, Bool.and_eq_true, Output.writeAll_good, List.forall_mem_cons, true_and]
  exact ⟨fun ⟨⟨⟨hh, hb⟩, hf⟩, hc⟩ => ⟨hh, hb, hf, hc⟩, fun ⟨hh, hb, hf, hc⟩ => ⟨⟨⟨hh, hb⟩, hf⟩, hc⟩⟩

variable {io header body} in
theorem copy_content (h : io.Writes header.length body) :
    (io.copy header body).content = header ++ io.delivered body := by
  have hgood := (io.copy_good header body).mpr h
  rw [copy_eq] at hgood ⊢
  simp only [Bool.and_eq_true] at hgood
  simpa [delivered] using Output.writeAll_content hgood.1.1

/-! ## The calls -/

/-- The call gets to the point of opening its files. -/
structure Accepts (io : FinalizeIo) (h : Header) : Prop where
  reads : io.header.Reads h.headEnd
  docType : h.docType.body = webmBytes
  fits : h.Fits

/-- The temporary file is written and takes the place of the container. -/
structure Installs (io : FinalizeIo) (h : Header) : Prop where
  input : io.inputOpens = true
  output : io.outputOpens = true
  writes : io.Writes (h.headEnd + 4) h.rest
  renames : io.renames = true

end FinalizeIo

/-- How a call for Matroska ends. -/
inductive Finalized (io : FinalizeIo) (files : Files) : Except String Unit × Files → Prop
  | rejected {error} (hno : ∀ h, h.bytes = files.destination → ¬ io.Accepts h) : Finalized io files (.error error, files)
  | unopened {error} (h : Header) (hbytes : h.bytes = files.destination) (haccepts : io.Accepts h)
      (hopens : ¬ (io.inputOpens = true ∧ io.outputOpens = true)) :
      Finalized io files
        (.error error, { files with temporary := if io.outputOpens then some [] else files.temporary })
  | uninstalled {error content} (h : Header) (hbytes : h.bytes = files.destination) (haccepts : io.Accepts h)
      (hinput : io.inputOpens = true) (houtput : io.outputOpens = true) (hno : ¬ io.Installs h) :
      Finalized io files (.error error, { files with temporary := if io.removes then none else some content })
  | installed (h : Header) (hbytes : h.bytes = files.destination) (haccepts : io.Accepts h) (hinstalls : io.Installs h)
      (h' : Header) (hrenamed : h' = (h.renamed haccepts.docType haccepts.fits).withRest (io.delivered h.rest)) :
      Finalized io files (validateContainerDocType io.check .matroska h'.bytes, ⟨h'.bytes, none⟩)

theorem finalizeContainerDocType_finalized (io : FinalizeIo) (files : Files) :
    Finalized io files (finalizeContainerDocType io .matroska files) := by
  rw [finalizeContainerDocType]
  cases hread : readHeader io.header files.destination with
  | error error =>
      refine .rejected fun h hbytes haccepts => ?_
      rw [← hbytes, readHeader_ok haccepts.reads] at hread
      cases hread
  | ok out =>
      obtain ⟨h, hbytes, hreads, rfl⟩ := readHeader_inv hread
      have hno {P : Prop} (hP : ∀ haccepts : io.Accepts h, P) : ∀ h', h'.bytes = files.destination → io.Accepts h' → P := by
        intro h' hbytes' haccepts
        rw [← hbytes] at hbytes'
        rw [Header.bytes_inj hbytes'] at haccepts
        exact hP haccepts
      by_cases hdoc : h.docType.body = webmBytes
      case neg =>
          simp only [if_neg (show ¬ h.info.docType = webmBytes from hdoc)]
          exact .rejected (hno fun haccepts => hdoc haccepts.docType)
      have htake : (io.header.window files.destination).take h.headEnd = h.head := by
        rw [← hbytes]
        exact window_take hreads
      simp only [if_pos (show h.info.docType = webmBytes from hdoc)]
      by_cases hfits : h.Fits
      case neg =>
          rw [replaceDocType_none hdoc hfits htake hreads.2.1]
          exact .rejected (hno fun haccepts => hfits haccepts.fits)
      have haccepts : io.Accepts h := ⟨hreads, hdoc, hfits⟩
      have hbody : files.destination.drop h.info.headerEnd = h.rest := by
        rw [← hbytes, h.bytes_eq, show h.info.headerEnd = h.head.length from h.length_head.symm, List.drop_left]
      have hlen : (h.renamed hdoc hfits).head.length = h.headEnd + 4 := by rw [Header.length_head, renamed_headEnd]
      rw [replaceDocType_fits hdoc hfits htake]
      simp only [installMatroska, hbody]
      by_cases hopens : (io.inputOpens && io.outputOpens) = true
      · rw [if_pos hopens]
        obtain ⟨hinput, houtput⟩ := Bool.and_eq_true_iff.mp hopens
        by_cases hgood : ((io.copy (h.renamed hdoc hfits).head h.rest).good && io.renames) = true
        · rw [if_pos hgood]
          obtain ⟨hgood, hrenames⟩ := Bool.and_eq_true_iff.mp hgood
          have hwrites := (io.copy_good _ _).mp hgood
          rw [FinalizeIo.copy_content hwrites, ← Header.withRest_bytes]
          rw [hlen] at hwrites
          exact .installed h hbytes haccepts ⟨hinput, houtput, hwrites, hrenames⟩ _ rfl
        · rw [if_neg hgood]
          refine .uninstalled h hbytes haccepts hinput houtput fun hinstalls => hgood ?_
          rw [Bool.and_eq_true, io.copy_good, hlen]
          exact ⟨hinstalls.writes, hinstalls.renames⟩
      · rw [if_neg hopens]
        exact .unopened h hbytes haccepts (by simpa using hopens)

/-! ## A call that reports success -/

/-- All operations of a call go through, where the reads of the copy loop may deliver what they like. -/
structure FinalizeIo.Succeeds (io : FinalizeIo) (h : Header) : Prop where
  accepts : io.Accepts h
  installs : io.Installs h
  check : io.check.Reads (h.headEnd + 4)

theorem finalize_ok_iff {io : FinalizeIo} {h : Header} {temporary : Option (List UInt8)} :
    (finalizeContainerDocType io .matroska ⟨h.bytes, temporary⟩).1 = .ok () ↔ io.Succeeds h := by
  have hcases := finalizeContainerDocType_finalized io ⟨h.bytes, temporary⟩
  generalize finalizeContainerDocType io .matroska ⟨h.bytes, temporary⟩ = out at hcases
  cases hcases with
  | rejected hno => exact ⟨nofun, fun hs => absurd hs.accepts (hno h rfl)⟩
  | unopened h' hbytes haccepts hopens => exact ⟨nofun, fun hs => absurd ⟨hs.installs.input, hs.installs.output⟩ hopens⟩
  | uninstalled h' hbytes haccepts hinput houtput hno =>
      rw [Header.bytes_inj hbytes] at hno
      exact ⟨nofun, fun hs => absurd hs.installs hno⟩
  | installed h' hbytes haccepts hinstalls h'' hrenamed =>
      obtain rfl := Header.bytes_inj hbytes
      have hend : h''.headEnd = h'.headEnd + 4 := by rw [hrenamed, Header.withRest_headEnd, renamed_headEnd]
      have hdoc : h''.docType.body = ContainerFormat.matroska.docType := by rw [hrenamed]; rfl
      simp only [validateContainerDocType_iff, hend, hdoc, and_true]
      exact ⟨fun hcheck => ⟨haccepts, hinstalls, hcheck⟩, fun hs => hs.check⟩

theorem finalize_of_succeeds {io : FinalizeIo} {h : Header} {temporary : Option (List UInt8)} (hs : io.Succeeds h) :
    (finalizeContainerDocType io .matroska ⟨h.bytes, temporary⟩).2 =
      ⟨((h.renamed hs.accepts.docType hs.accepts.fits).withRest (io.delivered h.rest)).bytes, none⟩ := by
  have hcases := finalizeContainerDocType_finalized io ⟨h.bytes, temporary⟩
  generalize finalizeContainerDocType io .matroska ⟨h.bytes, temporary⟩ = out at hcases
  cases hcases with
  | rejected hno => exact absurd hs.accepts (hno h rfl)
  | unopened h' hbytes haccepts hopens => exact absurd ⟨hs.installs.input, hs.installs.output⟩ hopens
  | uninstalled h' hbytes haccepts hinput houtput hno =>
      rw [Header.bytes_inj hbytes] at hno
      exact absurd hs.installs hno
  | installed h' hbytes haccepts hinstalls h'' hrenamed =>
      obtain rfl := Header.bytes_inj hbytes
      rw [hrenamed]

/-! ## The renamed container -/

/-- `h'` is `h` with the DocType of Matroska. -/
structure Renamed (h h' : Header) : Prop where
  sizeWidth : h'.sizeWidth = h.sizeWidth
  before : h'.before = h.before
  idWidth : h'.docType.idWidth = h.docType.idWidth
  id : h'.docType.id = h.docType.id
  docSizeWidth : h'.docType.sizeWidth = h.docType.sizeWidth
  docType : h'.docType.body = matroskaBytes
  after : h'.after = h.after
  payload : h'.payload.length = h.payload.length + 4

theorem renamed_renamed {h : Header} (hdoc : h.docType.body = webmBytes) (hfits : h.Fits) :
    Renamed h (h.renamed hdoc hfits) :=
  ⟨rfl, rfl, rfl, rfl, rfl, rfl, rfl, renamed_payload_length⟩

/-- A call that reports success for Matroska leaves the same container with the other DocType, and a call for WebM leaves
the files alone. -/
structure RenamesDocType (io : FinalizeIo) (h : Header) (temporary : Option (List UInt8)) : Prop where
  matroska : (finalizeContainerDocType io .matroska ⟨h.bytes, temporary⟩).1 = .ok () →
    ∃ h', Renamed h h' ∧ h'.rest = h.rest ∧
      (finalizeContainerDocType io .matroska ⟨h.bytes, temporary⟩).2.destination = h'.bytes ∧
      parseHeaderBytes h'.bytes = .ok h'.info
  webM : (finalizeContainerDocType io .webM ⟨h.bytes, temporary⟩).2 = ⟨h.bytes, temporary⟩

/-- The container is renamed as a whole exactly when, in a call whose other operations go through, the seek of the copy loop
does and no read of it comes short in front of the end. -/
theorem renamesDocType_iff {io : FinalizeIo} {h : Header} {temporary : Option (List UInt8)}
    (hdoc : h.docType.body = webmBytes) :
    RenamesDocType io h temporary ↔ (io.Succeeds h → io.DeliversAll h.rest) := by
  simp only [← FinalizeIo.delivered_eq_iff]
  constructor
  · intro hrenames hs
    obtain ⟨h', hrenamed, hrest, hdestination, -⟩ := hrenames.matroska (finalize_ok_iff.mpr hs)
    rw [finalize_of_succeeds hs] at hdestination
    have hbody : io.delivered h.rest = h'.rest := congrArg Header.rest (Header.bytes_inj hdestination)
    exact hbody.trans hrest
  · intro hall
    refine ⟨fun hok => ?_, rfl⟩
    have hs := finalize_ok_iff.mp hok
    refine ⟨h.renamed hdoc hs.accepts.fits, renamed_renamed hdoc _, rfl, ?_, parseHeaderBytes_complete _⟩
    rw [finalize_of_succeeds hs, hall hs]
    rfl

/-- A container with a body of one byte. -/
def smallHeader : Header :=
  ⟨1, [], docTypeElement webmBytes (by decide), [], [1], oneByte_pos, oneByte_le, by decide, not_isDocType_nil, by decide⟩

/-- Every operation goes through. -/
def smallIo : FinalizeIo where
  header := ⟨true, headerWindow⟩
  inputOpens := true
  outputOpens := true
  headerWrites := 100
  seeks := true
  copies := fun _ => ⟨bufferSize, bufferSize⟩
  flushes := true
  closes := true
  renames := true
  removes := true
  check := ⟨true, headerWindow⟩

theorem turns_of_delivers {copies : Nat → ChunkIo} {turn : Nat} {left : List UInt8}
    (h : min (copies turn).delivers left.length < bufferSize) :
    turns copies turn left = [(left.take (min (copies turn).delivers left.length), (copies turn).writes)] := by
  have hcount : min (copies turn).delivers (min bufferSize left.length) = min (copies turn).delivers left.length := by omega
  rw [turns]
  simp only [hcount, if_neg (Nat.ne_of_lt h)]

theorem renamesDocType_small : RenamesDocType smallIo smallHeader none := by
  refine (renamesDocType_iff rfl).mpr fun _ _ => ⟨rfl, fun later hlater => ?_⟩
  exact Nat.min_le_left _ _

/-- The first read of the copy loop fails. -/
def failedReadIo : FinalizeIo := { smallIo with copies := fun _ => ⟨0, bufferSize⟩ }

theorem failedReadIo_chunks : failedReadIo.chunks [1] = [([], bufferSize)] := by
  rw [FinalizeIo.chunks_of_seeks rfl, turns_of_delivers (by decide)]
  rfl

theorem failedReadIo_succeeds : failedReadIo.Succeeds smallHeader := by
  have hwrites : failedReadIo.Writes (smallHeader.headEnd + 4) smallHeader.rest := by
    refine ⟨by decide, ?_, rfl, rfl⟩
    rw [show smallHeader.rest = [1] from rfl, failedReadIo_chunks]
    simp
  exact ⟨⟨⟨rfl, by decide, by decide⟩, rfl, by rw [Header.Fits]; decide⟩, ⟨rfl, rfl, hwrites, rfl⟩, ⟨rfl, by decide, by decide⟩⟩

/-- A read error cuts the container off, and the call reports success. -/
theorem body_lost :
    ¬ ∀ (io : FinalizeIo) (h : Header) (temporary : Option (List UInt8)), h.docType.body = webmBytes →
      RenamesDocType io h temporary := by
  intro hall
  obtain ⟨h', -, hrest, hdestination, -⟩ :=
    (hall failedReadIo smallHeader none rfl).matroska (finalize_ok_iff.mpr failedReadIo_succeeds)
  rw [finalize_of_succeeds failedReadIo_succeeds] at hdestination
  have hnone : h'.rest = failedReadIo.delivered smallHeader.rest :=
    (congrArg Header.rest (Header.bytes_inj hdestination)).symm
  rw [hrest, FinalizeIo.delivered, show smallHeader.rest = [1] from rfl, failedReadIo_chunks] at hnone
  cases hnone

/-! ## A call that reports an error -/

/-- A call that reports an error leaves the container as it was, and no temporary file. -/
def RestoresOnError (io : FinalizeIo) (format : ContainerFormat) (file : List UInt8) : Prop :=
  ∀ error, (finalizeContainerDocType io format ⟨file, none⟩).1 = .error error →
    (finalizeContainerDocType io format ⟨file, none⟩).2 = ⟨file, none⟩

/-- Behind the checks of the header, the temporary file is opened only with the container, it can be removed when it cannot
be installed, and when it is installed the last check reads its header. -/
structure FinalizeIo.Recovers (io : FinalizeIo) (h : Header) : Prop where
  opens : io.outputOpens = true → io.inputOpens = true
  removes : io.inputOpens = true → io.outputOpens = true → ¬ io.Installs h → io.removes = true
  check : io.Installs h → io.check.Reads (h.headEnd + 4)

theorem restoresOnError_iff (io : FinalizeIo) (format : ContainerFormat) (file : List UInt8) :
    RestoresOnError io format file ↔
      (format = .matroska → ∀ h : Header, h.bytes = file → io.Accepts h → io.Recovers h) := by
  cases format with
  | webM => exact ⟨nofun, fun _ _ _ => rfl⟩
  | matroska =>
      rw [RestoresOnError]
      have hcases := finalizeContainerDocType_finalized io ⟨file, none⟩
      generalize finalizeContainerDocType io .matroska ⟨file, none⟩ = out at hcases
      cases hcases with
      | rejected hno => exact ⟨fun _ _ h hbytes haccepts => absurd haccepts (hno h hbytes), fun _ _ _ => rfl⟩
      | unopened h hbytes haccepts hopens =>
          constructor
          · rintro hrestores - h' hbytes' -
            obtain rfl := Header.bytes_inj (hbytes'.trans hbytes.symm)
            have hout : io.outputOpens = false := by
              by_contra hout
              have := congrArg Files.temporary (hrestores _ rfl)
              simp only [Bool.not_eq_false] at hout
              simp [hout] at this
            refine ⟨?_, ?_, fun hinstalls => absurd ⟨hinstalls.input, hinstalls.output⟩ hopens⟩
            · rw [hout]
              exact nofun
            · rw [hout]
              exact fun _ => nofun
          · intro hrecovers error _
            have hout : ¬ io.outputOpens = true := fun hout =>
              hopens ⟨(hrecovers rfl h hbytes haccepts).opens hout, hout⟩
            simp only [if_neg hout]
      | uninstalled h hbytes haccepts hinput houtput hno =>
          constructor
          · rintro hrestores - h' hbytes' -
            obtain rfl := Header.bytes_inj (hbytes'.trans hbytes.symm)
            refine ⟨fun _ => hinput, fun _ _ _ => ?_, fun hinstalls => absurd hinstalls hno⟩
            by_contra hremoves
            have := congrArg Files.temporary (hrestores _ rfl)
            simp [hremoves] at this
          · intro hrecovers error _
            have hremoves := (hrecovers rfl h hbytes haccepts).removes hinput houtput hno
            simp only [if_pos hremoves]
      | installed h hbytes haccepts hinstalls h' hrenamed =>
          have hend : h'.headEnd = h.headEnd + 4 := by rw [hrenamed, Header.withRest_headEnd, renamed_headEnd]
          have hdoc : h'.docType.body = ContainerFormat.matroska.docType := by rw [hrenamed]; rfl
          have hok : validateContainerDocType io.check .matroska h'.bytes = .ok () ↔ io.check.Reads (h.headEnd + 4) := by
            simp only [validateContainerDocType_iff, hend, hdoc, and_true]
          have hchanged : h'.bytes ≠ file := by
            intro heq
            have hlen : h'.payload.length = h.payload.length + 4 := by rw [hrenamed, Header.withRest_payload, renamed_payload_length]
            rw [Header.bytes_inj (heq.trans hbytes.symm)] at hlen
            omega
          constructor
          · rintro hrestores - h'' hbytes' -
            obtain rfl := Header.bytes_inj (hbytes'.trans hbytes.symm)
            refine ⟨fun _ => hinstalls.input, fun _ _ hno => absurd hinstalls hno, fun _ => hok.mp ?_⟩
            cases hcheck : validateContainerDocType io.check .matroska h'.bytes with
            | ok => rfl
            | error error => exact absurd (congrArg Files.destination (hrestores error hcheck)) hchanged
          · intro hrecovers error herror
            have := hok.mpr ((hrecovers rfl h hbytes haccepts).check hinstalls)
            rw [this] at herror
            cases herror

/-- The last check cannot open the container that has just been put in place. -/
def failedCheckIo : FinalizeIo := { smallIo with check := ⟨false, 0⟩ }

theorem failedCheckIo_installs : failedCheckIo.Installs smallHeader := by
  refine ⟨rfl, rfl, ⟨by decide, ?_, rfl, rfl⟩, rfl⟩
  rw [FinalizeIo.chunks_of_seeks rfl, turns_of_delivers (by decide)]
  decide

/-- A call that reports an error has replaced the container. -/
theorem container_replaced :
    ¬ ∀ (io : FinalizeIo) (format : ContainerFormat) (file : List UInt8), RestoresOnError io format file := by
  intro hall
  have haccepts : failedCheckIo.Accepts smallHeader :=
    ⟨⟨rfl, by decide, by decide⟩, rfl, by rw [Header.Fits]; decide⟩
  have hcases := finalizeContainerDocType_finalized failedCheckIo ⟨smallHeader.bytes, none⟩
  have hrestores := hall failedCheckIo .matroska smallHeader.bytes
  rw [RestoresOnError] at hrestores
  generalize finalizeContainerDocType failedCheckIo .matroska ⟨smallHeader.bytes, none⟩ = out at hcases hrestores
  cases hcases with
  | rejected hno => exact hno _ rfl haccepts
  | unopened h hbytes haccepts hopens => exact hopens ⟨rfl, rfl⟩
  | uninstalled h hbytes haccepts hinput houtput hno =>
      rw [Header.bytes_inj hbytes] at hno
      exact hno failedCheckIo_installs
  | installed h hbytes haccepts hinstalls h' hrenamed =>
      have hdestination := congrArg Files.destination (hrestores _ rfl)
      have hlen : h'.payload.length = h.payload.length + 4 := by rw [hrenamed, Header.withRest_payload, renamed_payload_length]
      rw [Header.bytes_inj (hdestination.trans hbytes.symm)] at hlen
      omega

end MkvCodec.Container
