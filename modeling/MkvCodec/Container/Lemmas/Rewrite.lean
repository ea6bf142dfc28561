import MkvCodec.Container.Format
import MkvCodec.Container.Lemmas.WriteSize
import MkvCodec.Container.Parser

/-!
# Headers in files

What is read of a header through a window, what `finalize_container_doc_type` makes of a header, and what the copy loop
puts behind it.
-/

namespace MkvCodec.Container

open Prefixed

/-! ## The head of a file -/

namespace Header

/-- The bytes of the header alone. -/
def head (h : Header) : List UInt8 := ebmlId ++ (field h.sizeWidth h.payload.length ++ h.payload)

def headEnd (h : Header) : Nat := h.payloadPosition + h.payload.length

/-- The same header in front of other bytes. -/
def withRest (h : Header) (rest : List UInt8) : Header := { h with rest := rest }

theorem bytes_eq (h : Header) : h.bytes = h.head ++ h.rest := by simp [bytes, head]

@[simp] theorem length_head (h : Header) : h.head.length = h.headEnd := by
  simp [head, headEnd, payloadPosition, ebmlId]
  omega

@[simp] theorem withRest_head (h : Header) (rest : List UInt8) : (h.withRest rest).head = h.head := rfl

@[simp] theorem withRest_headEnd (h : Header) (rest : List UInt8) : (h.withRest rest).headEnd = h.headEnd := rfl

@[simp] theorem withRest_payload (h : Header) (rest : List UInt8) : (h.withRest rest).payload = h.payload := rfl

@[simp] theorem withRest_info (h : Header) (rest : List UInt8) : (h.withRest rest).info = h.info := rfl

theorem withRest_bytes (h : Header) (rest : List UInt8) : (h.withRest rest).bytes = h.head ++ rest := bytes_eq _

/-- A part of the file that holds the whole header parses as the file does. -/
theorem parse_take {h : Header} {k : Nat} (hk : h.headEnd ≤ k) : parseHeaderBytes (h.bytes.take k) = .ok h.info := by
  have htake : h.bytes.take k = (h.withRest (h.rest.take (k - h.headEnd))).bytes := by
    rw [withRest_bytes, bytes_eq, List.take_append, length_head, List.take_of_length_le (by simpa using hk)]
  rw [htake, parseHeaderBytes_complete, withRest_info]

/-- A part of a file that parses holds a whole header of the file. -/
theorem of_parse_take {file : List UInt8} {k : Nat} {info : HeaderInfo} (h : parseHeaderBytes (file.take k) = .ok info) :
    ∃ h : Header, h.bytes = file ∧ h.headEnd ≤ k ∧ h.info = info := by
  rcases parseHeaderBytes_sound (file.take k) with hrej | ⟨h', hbytes, hok⟩
  · rw [hrej] at h
    cases h
  · rw [hok] at h
    cases h
    refine ⟨h'.withRest (h'.rest ++ file.drop k), ?_, ?_, rfl⟩
    · rw [withRest_bytes, ← List.append_assoc, ← bytes_eq, hbytes, List.take_append_drop]
    · have hlen := congrArg List.length hbytes
      rw [bytes_eq, List.length_append, length_head, List.length_take] at hlen
      rw [withRest_headEnd]
      omega

end Header

/-- The stream of `read_header` delivers the whole header. -/
def HeaderIo.Reads (io : HeaderIo) (headEnd : Nat) : Prop :=
  io.opens = true ∧ headEnd ≤ headerWindow ∧ headEnd ≤ io.delivers

theorem readHeader_ok {io : HeaderIo} {h : Header} (hreads : io.Reads h.headEnd) :
    readHeader io h.bytes = .ok (io.window h.bytes, h.info) := by
  obtain ⟨hopens, hwindow, hdelivers⟩ := hreads
  have hparse : parseHeaderBytes (io.window h.bytes) = .ok h.info := by
    rw [HeaderIo.window, List.take_take]
    exact Header.parse_take (by omega)
  simp [readHeader, hopens, hparse]

theorem readHeader_inv {io : HeaderIo} {file : List UInt8} {out : List UInt8 × HeaderInfo}
    (h : readHeader io file = .ok out) :
    ∃ h : Header, h.bytes = file ∧ io.Reads h.headEnd ∧ out = (io.window file, h.info) := by
  rw [readHeader] at h
  split at h
  case isFalse => cases h
  case isTrue hopens =>
      cases hparse : parseHeaderBytes (io.window file) with
      | error stop => simp [hparse] at h
      | ok info =>
          rw [hparse] at h
          cases h
          rw [HeaderIo.window, List.take_take] at hparse
          obtain ⟨header, hbytes, hend, rfl⟩ := Header.of_parse_take hparse
          exact ⟨header, hbytes, ⟨hopens, by omega, by omega⟩, rfl⟩

theorem window_take {io : HeaderIo} {h : Header} (hreads : io.Reads h.headEnd) :
    (io.window h.bytes).take h.headEnd = h.head := by
  obtain ⟨-, hwindow, hdelivers⟩ := hreads
  rw [HeaderIo.window, List.take_take, List.take_take,
    show min (min h.headEnd io.delivers) headerWindow = h.headEnd by omega, h.bytes_eq, ← h.length_head, List.take_left]

theorem validateContainerDocType_iff {io : HeaderIo} {format : ContainerFormat} {h : Header} :
    validateContainerDocType io format h.bytes = .ok () ↔ io.Reads h.headEnd ∧ h.docType.body = format.docType := by
  constructor
  · intro hok
    rw [validateContainerDocType] at hok
    cases hread : readHeader io h.bytes with
    | error error => simp [hread] at hok
    | ok out =>
        obtain ⟨h', hbytes, hreads, rfl⟩ := readHeader_inv hread
        rw [Header.bytes_inj hbytes] at hreads hread
        rw [hread] at hok
        refine ⟨hreads, ?_⟩
        by_contra hne
        have hno : ¬ h.info.docType = format.docType := hne
        simp only [if_neg hno] at hok
        cases hok
  · rintro ⟨hreads, hdoc⟩
    rw [validateContainerDocType, readHeader_ok hreads]
    exact if_pos hdoc

/-! ## The renamed header -/

/-- The size field of the header can count four bytes more. -/
def Header.Fits (h : Header) : Prop := h.payload.length + 4 < 2 ^ (7 * h.sizeWidth) - 1

/-- The header with the DocType of Matroska. -/
def Header.renamed (h : Header) (hdoc : h.docType.body = webmBytes) (hfits : h.Fits) : Header :=
  { h with
    docType :=
      { h.docType with
        body := matroskaBytes
        body_lt := by
          have hpow : 2 ^ 7 ≤ 2 ^ (7 * h.docType.sizeWidth) :=
            Nat.pow_le_pow_right (by decide) (by have := h.docType.sizeWidth_pos; omega)
          exact (show matroskaBytes.length < 2 ^ 7 by decide).trans_le hpow }
    isDocType := h.isDocType
    payload_lt := by
      have hlen : h.payload.length + 4 < 2 ^ (7 * h.sizeWidth) := by
        have := hfits
        rw [Header.Fits] at this
        omega
      simp only [Header.payload, List.length_append, Element.length_bytes, hdoc] at hlen ⊢
      simp only [webmBytes, matroskaBytes, List.length_cons, List.length_nil] at hlen ⊢
      omega }

section

variable {h : Header} {hdoc : h.docType.body = webmBytes} {hfits : h.Fits}

theorem renamed_payload_length : (h.renamed hdoc hfits).payload.length = h.payload.length + 4 := by
  simp only [Header.renamed, Header.payload, List.length_append, Element.length_bytes, hdoc]
  simp only [webmBytes, matroskaBytes, List.length_cons, List.length_nil]
  omega

theorem renamed_headEnd : (h.renamed hdoc hfits).headEnd = h.headEnd + 4 := by
  rw [Header.headEnd, renamed_payload_length, Header.headEnd, Nat.add_assoc]
  rfl

/-- What comes before the size field of the DocType, behind the size field of the header. -/
def Header.beforeSize (h : Header) : List UInt8 := elementBytes h.before ++ h.docType.idBytes

theorem head_split (h : Header) :
    h.head = ebmlId ++ (field h.sizeWidth h.payload.length ++ (h.beforeSize ++
      (field h.docType.sizeWidth h.docType.body.length ++ (h.docType.body ++ h.after)))) := by
  simp [Header.head, Header.payload, Header.beforeSize, Element.bytes]

theorem docSizePosition_eq (h : Header) :
    h.info.docSizePosition = (ebmlId ++ (field h.sizeWidth h.payload.length ++ h.beforeSize)).length := by
  simp only [Header.info, Header.docPosition, Header.payloadPosition, Header.beforeSize, Element.idBytes,
    List.length_append, length_field]
  simp [ebmlId]
  omega

theorem docValuePosition_eq (h : Header) :
    h.info.docValuePosition = (ebmlId ++ (field h.sizeWidth h.payload.length ++ (h.beforeSize ++
      field h.docType.sizeWidth h.docType.body.length))).length := by
  have hsize := docSizePosition_eq h
  have hvalue : h.info.docValuePosition = h.info.docSizePosition + h.docType.sizeWidth := rfl
  rw [hvalue, hsize]
  simp
  omega

/-- A value in the middle of a list is erased and another one inserted in its place. -/
theorem erase_insert (value after inserted : List UInt8) {before : List UInt8} {position size : Nat} (hposition : before.length = position)
    (hsize : value.length = size) :
    let erased := (before ++ (value ++ after)).take position ++ (before ++ (value ++ after)).drop (position + size)
    erased.take position ++ (inserted ++ erased.drop position) = before ++ (inserted ++ after) := by
  subst hposition hsize
  have hdrop : (before ++ (value ++ after)).drop (before.length + value.length) = after := by
    rw [← List.append_assoc, ← List.length_append, List.drop_left]
  simp only [List.take_left, hdrop, List.drop_left]

theorem writeDocSize (h : Header) :
    writeSize (ebmlId ++ (field h.sizeWidth h.payload.length ++ (h.beforeSize ++
      (field h.docType.sizeWidth h.docType.body.length ++ (matroskaBytes ++ h.after)))))
      h.info.docSizePosition h.info.docSizeWidth (UInt64.ofNat matroskaBytes.length) =
      some (ebmlId ++ (field h.sizeWidth h.payload.length ++ (h.beforeSize ++
        (field h.docType.sizeWidth matroskaBytes.length ++ (matroskaBytes ++ h.after))))) := by
  have hpow : 2 ^ 7 ≤ 2 ^ (7 * h.docType.sizeWidth) :=
    Nat.pow_le_pow_right (by decide) (by have := h.docType.sizeWidth_pos; omega)
  have height : (UInt64.ofNat matroskaBytes.length).toNat = matroskaBytes.length := rfl
  have hlt : matroskaBytes.length < 2 ^ (7 * h.docType.sizeWidth) - 1 := by
    have : matroskaBytes.length = 8 := rfl
    omega
  have hwrite := writeSize_ok (ebmlId ++ (field h.sizeWidth h.payload.length ++ h.beforeSize))
    (field h.docType.sizeWidth h.docType.body.length) (matroskaBytes ++ h.after) (UInt64.ofNat matroskaBytes.length)
    (by rw [length_field]; exact h.docType.sizeWidth_pos)
    (by rw [length_field]; exact h.docType.sizeWidth_le) (by rw [length_field, height]; exact hlt)
  rw [height, length_field, ← docSizePosition_eq] at hwrite
  simp only [List.append_assoc] at hwrite
  exact hwrite

/-- The DocType value is replaced and its size field is written. -/
theorem replaceDocType_eq {bytes : List UInt8} (hdoc : h.docType.body = webmBytes)
    (hbytes : bytes.take h.headEnd = h.head) :
    replaceDocType bytes h.info =
      writeSize (ebmlId ++ (field h.sizeWidth h.payload.length ++ (h.beforeSize ++
        (field h.docType.sizeWidth matroskaBytes.length ++ (matroskaBytes ++ h.after))))) 4 h.sizeWidth
        (UInt64.ofNat (h.payload.length + 4)) := by
  have htake : bytes.take h.info.headerEnd =
      (ebmlId ++ (field h.sizeWidth h.payload.length ++ (h.beforeSize ++
        field h.docType.sizeWidth h.docType.body.length))) ++ (h.docType.body ++ h.after) := by
    have : h.info.headerEnd = h.headEnd := rfl
    rw [this, hbytes, head_split]
    simp only [List.append_assoc]
  have hsplice := erase_insert h.docType.body h.after matroskaBytes (docValuePosition_eq h).symm (show h.docType.body.length = h.info.docValueSize from rfl)
  have hdelta : h.info.payloadSize + (UInt64.ofNat matroskaBytes.length - UInt64.ofNat h.info.docValueSize) =
      UInt64.ofNat (h.payload.length + 4) := by
    have hfour : h.info.docValueSize = 4 := by
      have : h.info.docValueSize = h.docType.body.length := rfl
      rw [this, hdoc]
      rfl
    rw [hfour, UInt64.ofNat_add]
    rfl
  have hwrite := writeDocSize h
  simp only [replaceDocType, htake, hdelta]
  simp only at hsplice
  rw [hsplice]
  simp only [List.append_assoc, hwrite]
  rfl

theorem replaceDocType_fits {bytes : List UInt8} (hdoc : h.docType.body = webmBytes) (hfits : h.Fits)
    (hbytes : bytes.take h.headEnd = h.head) :
    replaceDocType bytes h.info = some (h.renamed hdoc hfits).head := by
  have hvalue : (UInt64.ofNat (h.payload.length + 4)).toNat = h.payload.length + 4 :=
    toNat_fieldValue h.sizeWidth_le (by rw [Header.Fits] at hfits; omega)
  have hwrite := writeSize_ok ebmlId (field h.sizeWidth h.payload.length)
    (h.beforeSize ++ (field h.docType.sizeWidth matroskaBytes.length ++ (matroskaBytes ++ h.after)))
    (UInt64.ofNat (h.payload.length + 4)) (by rw [length_field]; exact h.sizeWidth_pos)
    (by rw [length_field]; exact h.sizeWidth_le) (by rw [length_field, hvalue]; exact hfits)
  rw [hvalue, length_field] at hwrite
  rw [replaceDocType_eq hdoc hbytes, head_split, renamed_payload_length]
  exact hwrite

/-- A header that the window holds is refused when its size field cannot count four bytes more. -/
theorem replaceDocType_none {bytes : List UInt8} (hdoc : h.docType.body = webmBytes) (hfits : ¬ h.Fits)
    (hbytes : bytes.take h.headEnd = h.head) (hend : h.headEnd ≤ headerWindow) : replaceDocType bytes h.info = none := by
  have hsmall : h.payload.length + 4 < 2 ^ 13 := by
    rw [Header.headEnd, headerWindow] at hend
    omega
  have hw8 : h.sizeWidth < 8 := by
    by_contra hge
    have : h.sizeWidth = 8 := by
      have := h.sizeWidth_le
      omega
    rw [Header.Fits, this] at hfits
    omega
  have hvalue : (UInt64.ofNat (h.payload.length + 4)).toNat = h.payload.length + 4 :=
    UInt64.toNat_ofNat_of_lt' (hsmall.trans (by decide))
  rw [replaceDocType_eq hdoc hbytes]
  exact writeSize_none h.sizeWidth_pos hw8 (by rw [hvalue]; exact not_lt.mp hfits)

end

end MkvCodec.Container
