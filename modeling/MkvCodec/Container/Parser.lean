import MkvCodec.Container.Grammar

/-!
# `parse_header_bytes` and the grammar

The parser reads the headers of the grammar and nothing else, except that it takes a size field of ones for a number.
-/

namespace MkvCodec.Container

open Prefixed

/-! ## Ids -/

theorem idValue_eq_iff {width width' n n' : Nat} (hw8 : width ≤ 8) (hw8' : width' ≤ 8) (hn : n < 2 ^ (7 * width))
    (hn' : n' < 2 ^ (7 * width')) :
    UInt64.ofNat (fieldValue true width n) = UInt64.ofNat (fieldValue true width' n') ↔
      field width n = field width' n' := by
  constructor
  · intro h
    have hlt := fieldValue_lt true hw8 hn
    have hlt' := fieldValue_lt true hw8' hn'
    have heq := congrArg UInt64.toNat h
    rw [UInt64.toNat_ofNat_of_lt' hlt, UInt64.toNat_ofNat_of_lt' hlt'] at heq
    simp only [fieldValue, if_true] at heq
    obtain ⟨rfl, rfl⟩ := marker_inj hn hn' heq
    rfl
  · intro h
    have hwidth : width = width' := by simpa using congrArg List.length h
    subst hwidth
    by_cases hw : 1 ≤ width
    · have := congrArg beValue h
      rw [beValue_field hn hw, beValue_field hn' hw] at this
      obtain rfl : n = n' := by omega
      rfl
    · obtain rfl : width = 0 := by omega
      simp only [Nat.mul_zero, pow_zero, Nat.lt_one_iff] at hn hn'
      rw [hn, hn']

theorem isDocType_iff (e : Element) :
    UInt64.ofNat (fieldValue true e.idWidth e.id) = kDocType ↔ e.IsDocType := by
  have hfield : field 2 0x282 = [0x42, 0x82] := by decide
  rw [Element.IsDocType, Element.idBytes, ← hfield, ← idValue_eq_iff e.idWidth_le (by decide) e.id_lt (by decide)]
  rfl

theorem isEbmlId_iff {width n : Nat} (hw8 : width ≤ 8) (hn : n < 2 ^ (7 * width)) :
    UInt64.ofNat (fieldValue true width n) = kEbmlHeader ↔ field width n = ebmlId := by
  have hfield : field 4 0xA45DFA3 = ebmlId := by decide
  rw [← hfield, ← idValue_eq_iff hw8 (by decide) hn (by decide)]
  rfl

/-! ## The loop over the elements -/

/-- What the loop reports of a DocType behind some elements. -/
def docInfo (sizePosition : Nat) (size : Vint) (headerEnd position : Nat) (doc : Element) : HeaderInfo where
  payloadSizePosition := sizePosition
  payloadSizeWidth := size.width
  payloadSize := size.value
  headerEnd := headerEnd
  docSizePosition := position + doc.idWidth
  docSizeWidth := doc.sizeWidth
  docValuePosition := position + doc.idWidth + doc.sizeWidth
  docValueSize := doc.body.length
  docType := doc.body

section

variable {bytes : List UInt8} {sizePosition : Nat} {size : Vint} {headerEnd : Nat}

/-- One turn of the loop on an element inside the payload. -/
theorem scanElements_step {fuel position : Nat} {e : Element} {rest : List UInt8}
    (h : bytes.drop position = e.bytes ++ rest) (hend : position + e.bytes.length ≤ headerEnd) :
    scanElements bytes sizePosition size headerEnd (fuel + 1) position =
      if e.IsDocType then .ok (docInfo sizePosition size headerEnd position e)
      else scanElements bytes sizePosition size headerEnd fuel (position + e.bytes.length) := by
  have hid : bytes.drop position = field e.idWidth e.id ++ (field e.sizeWidth e.body.length ++ (e.body ++ rest)) := by
    simpa [Element.bytes, Element.idBytes] using h
  have hsize : bytes.drop (position + e.idWidth) = field e.sizeWidth e.body.length ++ (e.body ++ rest) := by
    simpa using drop_add_of_drop hid
  have hbody : bytes.drop (position + e.idWidth + e.sizeWidth) = e.body ++ rest := by
    simpa using drop_add_of_drop hsize
  have hread := readVint_complete true e.idWidth_pos e.idWidth_le e.id_lt hid
  have hread' := readVint_complete false e.sizeWidth_pos e.sizeWidth_le e.body_lt hsize
  have hlen := toNat_fieldValue e.sizeWidth_le e.body_lt
  have hpos := e.idWidth_pos
  rw [Element.length_bytes] at hend
  simp only [scanElements, hread, hread', bind, Except.bind, hlen]
  rw [if_neg (by omega), if_neg (by omega), if_neg (by omega), hbody, List.take_left]
  simp only [isDocType_iff, Element.length_bytes, Nat.add_assoc, docInfo]

theorem scanElements_complete (sizePosition : Nat) (size : Vint) (headerEnd : Nat) {fuel position : Nat}
    {before : List Element} {doc : Element} {rest : List UInt8}
    (hdoc : doc.IsDocType) (hfirst : ∀ e ∈ before, ¬ e.IsDocType) (hfuel : before.length < fuel)
    (h : bytes.drop position = elementBytes before ++ (doc.bytes ++ rest))
    (hend : position + (elementBytes before).length + doc.bytes.length ≤ headerEnd) :
    scanElements bytes sizePosition size headerEnd fuel position =
      .ok (docInfo sizePosition size headerEnd (position + (elementBytes before).length) doc) := by
  induction before generalizing fuel position with
  | nil =>
      obtain ⟨fuel, rfl⟩ : ∃ k, fuel = k + 1 := ⟨fuel - 1, by simp at hfuel; omega⟩
      rw [scanElements_step (by simpa [elementBytes] using h) (by simpa [elementBytes] using hend), if_pos hdoc]
      simp [elementBytes]
  | cons e before ih =>
      obtain ⟨fuel, rfl⟩ : ∃ k, fuel = k + 1 := ⟨fuel - 1, by simp at hfuel; omega⟩
      rw [elementBytes_cons, List.append_assoc] at h
      rw [elementBytes_cons, List.length_append] at hend ⊢
      rw [scanElements_step h (by omega), if_neg (hfirst e List.mem_cons_self),
        ih (fun e he => hfirst e (List.mem_cons_of_mem _ he)) (by simp at hfuel; omega) (drop_add_of_drop h) (by omega),
        Nat.add_assoc]

/-- An id, a size and as many bytes inside the payload are an element. -/
theorem exists_element {position width n width' n' : Nat} {rest rest' : List UInt8} (hw : 1 ≤ width) (hw8 : width ≤ 8)
    (hn : n < 2 ^ (7 * width)) (hw' : 1 ≤ width') (hw8' : width' ≤ 8) (hn' : n' < 2 ^ (7 * width'))
    (h : bytes.drop position = field width n ++ rest) (h' : bytes.drop (position + width) = field width' n' ++ rest')
    (hfits : position + width + width' + n' ≤ bytes.length) :
    ∃ (e : Element) (rest : List UInt8), bytes.drop position = e.bytes ++ rest ∧
      e.bytes.length = width + (width' + n') := by
  have hrest : rest = field width' n' ++ rest' := by
    have := drop_add_of_drop h
    rw [length_field] at this
    rw [← this, h']
  have hrest' : bytes.drop (position + width + width') = rest' := by simpa using drop_add_of_drop h'
  have hbody : (rest'.take n').length = n' := by
    have := congrArg List.length hrest'
    rw [List.length_drop] at this
    rw [List.length_take]
    omega
  refine ⟨⟨width, n, width', rest'.take n', hw, hw8, hn, hw', hw8', by rwa [hbody]⟩, rest'.drop n', ?_, ?_⟩
  · simp only [Element.bytes, Element.idBytes, hbody, List.append_assoc, List.take_append_drop, h, hrest]
  · simp [hbody]

/-- One turn of the loop rejects what is no element inside the payload. -/
theorem scanElements_cases {fuel position : Nat} (hbytes : headerEnd ≤ bytes.length) :
    scanElements bytes sizePosition size headerEnd (fuel + 1) position = .error .rejected ∨
      ∃ (e : Element) (rest : List UInt8), bytes.drop position = e.bytes ++ rest ∧
        position + e.bytes.length ≤ headerEnd := by
  by_cases hpos : headerEnd ≤ position
  · left
    rw [scanElements, if_pos hpos]
  rcases readVint_sound bytes position true with hid | ⟨width, n, rest, hw, hw8, hn, hdrop, hid⟩
  · left
    simp only [scanElements, if_neg hpos, hid, bind, Except.bind]
  by_cases hover : headerEnd < position + width
  · left
    simp only [scanElements, if_neg hpos, hid, bind, Except.bind, if_pos hover]
  rcases readVint_sound bytes (position + width) false with hsz | ⟨width', n', rest', hw', hw8', hn', hdrop', hsz⟩
  · left
    simp only [scanElements, if_neg hpos, hid, bind, Except.bind, if_neg hover, hsz]
  have hlen := toNat_fieldValue hw8' hn'
  by_cases hover' : headerEnd < position + width + width' ∨ headerEnd - (position + width + width') < n'
  · left
    simp only [scanElements, if_neg hpos, hid, bind, Except.bind, if_neg hover, hsz, hlen, if_pos hover']
  obtain ⟨e, rest, he, helen⟩ := exists_element hw hw8 hn hw' hw8' hn' hdrop hdrop' (by omega)
  exact .inr ⟨e, rest, he, by omega⟩

theorem scanElements_sound (bytes : List UInt8) (sizePosition : Nat) (size : Vint) (headerEnd fuel position : Nat)
    (hle : position ≤ headerEnd) (hbytes : headerEnd ≤ bytes.length)
    (hfuel : headerEnd < fuel + position) :
    scanElements bytes sizePosition size headerEnd fuel position = .error .rejected ∨
      ∃ (before : List Element) (doc : Element) (rest : List UInt8), doc.IsDocType ∧ (∀ e ∈ before, ¬ e.IsDocType) ∧
        before.length < fuel ∧ bytes.drop position = elementBytes before ++ (doc.bytes ++ rest) ∧
        position + (elementBytes before).length + doc.bytes.length ≤ headerEnd := by
  induction fuel generalizing position with
  | zero => omega
  | succ fuel ih =>
      rcases scanElements_cases hbytes with hrej | ⟨e, rest, he, hend⟩
      · exact .inl hrej
      by_cases hdoc : e.IsDocType
      · exact .inr ⟨[], e, rest, hdoc, by simp, by simp, by simpa [elementBytes] using he,
          by simp only [elementBytes, List.flatMap_nil, List.length_nil]; omega⟩
      have hpos := e.idWidth_pos
      have helen := e.length_bytes
      rw [scanElements_step he hend, if_neg hdoc]
      rcases @ih (position + e.bytes.length) (by omega) (by omega) with
        hrej | ⟨before, doc, tail, hd, hfirst, hlt, htail, hend⟩
      · exact .inl hrej
      · refine .inr ⟨e :: before, doc, tail, hd, ?_, by simp only [List.length_cons]; omega, ?_, ?_⟩
        · intro x hx
          rcases List.mem_cons.mp hx with rfl | hx
          · exact hdoc
          · exact hfirst x hx
        · have hrest : rest = elementBytes before ++ (doc.bytes ++ tail) := by
            rw [← htail, ← drop_add_of_drop he]
          rw [he, hrest, elementBytes_cons, List.append_assoc]
        · rw [elementBytes_cons, List.length_append]
          omega

end

/-! ## The parser -/

/-- No element is empty. -/
theorem length_le_elementBytes (elements : List Element) : elements.length ≤ (elementBytes elements).length := by
  induction elements with
  | nil => simp
  | cons e elements ih =>
      have := e.idWidth_pos
      simp only [elementBytes_cons, List.length_cons, List.length_append, Element.length_bytes]
      omega

theorem parseHeaderBytes_complete (h : Header) : parseHeaderBytes h.bytes = .ok h.info := by
  have hid : h.bytes.drop 0 = field 4 0xA45DFA3 ++ (field h.sizeWidth h.payload.length ++ (h.payload ++ h.rest)) := rfl
  have hsize : h.bytes.drop 4 = field h.sizeWidth h.payload.length ++ (h.payload ++ h.rest) := by
    simpa using drop_add_of_drop hid
  have hpayload : h.bytes.drop (4 + h.sizeWidth) = h.payload ++ h.rest := by simpa using drop_add_of_drop hsize
  have hread := readVint_complete true (by decide) (by decide) (by decide) hid
  have hread' := readVint_complete false h.sizeWidth_pos h.sizeWidth_le h.length_payload_lt hsize
  have hvalue : fieldValue false h.sizeWidth h.payload.length = h.payload.length := by simp [fieldValue]
  have hlen : (UInt64.ofNat h.payload.length).toNat = h.payload.length :=
    toNat_fieldValue h.sizeWidth_le h.length_payload_lt
  have hbytes : h.bytes.length = 4 + (h.sizeWidth + (h.payload.length + h.rest.length)) := by
    simp [Header.bytes, ebmlId]
    omega
  have hcount := length_le_elementBytes h.before
  have hparts : h.payload.length = (elementBytes h.before).length + (h.docType.bytes.length + h.after.length) := by
    simp [Header.payload]
  have hdrop : h.bytes.drop (4 + h.sizeWidth) =
      elementBytes h.before ++ (h.docType.bytes ++ (h.after ++ h.rest)) := by
    rw [hpayload]
    simp [Header.payload]
  have hcount' : h.before.length < h.bytes.length + 1 := by omega
  have hscan := scanElements_complete 4 ⟨UInt64.ofNat h.payload.length, h.sizeWidth, 4 + h.sizeWidth⟩
    (4 + h.sizeWidth + h.payload.length) h.isDocType h.first hcount' hdrop (by omega)
  have hkept : ¬ UInt64.ofNat (fieldValue true 4 0xA45DFA3) ≠ kEbmlHeader := by decide
  simp only [parseHeaderBytes, hread, bind, Except.bind, if_neg hkept, Nat.zero_add, hread', hvalue, hlen]
  rw [if_neg (by omega), hscan]
  rfl

theorem parseHeaderBytes_sound (bytes : List UInt8) :
    parseHeaderBytes bytes = .error .rejected ∨ ∃ h : Header, h.bytes = bytes ∧ parseHeaderBytes bytes = .ok h.info := by
  rcases readVint_sound bytes 0 true with hid | ⟨width, n, rest, -, hw8, hn, hdrop, hid⟩
  · left
    simp only [parseHeaderBytes, hid, bind, Except.bind]
  by_cases hkept : UInt64.ofNat (fieldValue true width n) ≠ kEbmlHeader
  · left
    simp only [parseHeaderBytes, hid, bind, Except.bind, if_pos hkept]
  rcases readVint_sound bytes (0 + width) false with hsz | ⟨width', n', rest', hw', hw8', hn', hdrop', hsz⟩
  · left
    simp only [parseHeaderBytes, hid, bind, Except.bind, if_neg hkept, hsz]
  have hlen := toNat_fieldValue hw8' hn'
  have hebml : field width n = ebmlId := (isEbmlId_iff hw8 hn).mp (not_not.mp hkept)
  have hwidth : width = 4 := by simpa [ebmlId] using congrArg List.length hebml
  subst hwidth
  have hrest : rest = field width' n' ++ rest' := by
    have := drop_add_of_drop hdrop
    rw [length_field] at this
    rw [← this, hdrop']
  have hbytes : bytes = ebmlId ++ (field width' n' ++ rest') := by
    rw [← hebml, ← hrest]
    exact hdrop
  have htotal : bytes.length = 4 + (width' + rest'.length) := by
    rw [hbytes]
    simp [ebmlId]
    omega
  by_cases hover : bytes.length - (0 + 4 + width') < n'
  · left
    simp only [parseHeaderBytes, hid, bind, Except.bind, if_neg hkept, hsz, hlen, if_pos hover]
  have hpayload : bytes.drop (0 + 4 + width') = rest' := by simpa using drop_add_of_drop hdrop'
  rcases scanElements_sound bytes (0 + 4) ⟨UInt64.ofNat (fieldValue false width' n'), width', 0 + 4 + width'⟩
      (0 + 4 + width' + n') (bytes.length + 1) (0 + 4 + width') (by omega) (by omega) (by omega) with
    hrej | ⟨before, doc, tail, hdoc, hfirst, -, htail, hend⟩
  · left
    simp only [parseHeaderBytes, hid, bind, Except.bind, if_neg hkept, hsz, hlen, if_neg hover, hrej]
  · right
    rw [hpayload] at htail
    have hlens := congrArg List.length htail
    simp only [List.length_append] at hlens
    have hfits : (elementBytes before ++ doc.bytes).length ≤ n' := by
      rw [List.length_append]
      omega
    have hpay : elementBytes before ++ (doc.bytes ++ tail.take (n' - (elementBytes before ++ doc.bytes).length)) =
        rest'.take n' := by
      rw [htail, ← List.append_assoc, ← List.append_assoc, List.take_append, List.take_of_length_le hfits]
    have hpaylen : (elementBytes before ++
        (doc.bytes ++ tail.take (n' - (elementBytes before ++ doc.bytes).length))).length = n' := by
      rw [hpay, List.length_take]
      omega
    let h : Header := ⟨width', before, doc, tail.take (n' - (elementBytes before ++ doc.bytes).length), rest'.drop n',
      hw', hw8', hdoc, hfirst, by rw [hpaylen]; exact hn'⟩
    have hh : h.bytes = bytes := by
      have hp : h.payload = rest'.take n' := hpay
      have hl : h.payload.length = n' := hpaylen
      rw [Header.bytes, hl, hp, List.take_append_drop, hbytes]
    exact ⟨h, hh, by rw [← hh]; exact parseHeaderBytes_complete h⟩

/-! ## The grammar that the parser should accept -/

/-- The parser accepts the headers without an unknown size, and nothing else, and reports their parts; it does not read
outside the buffer and it ends. -/
structure ParsesExactly (bytes : List UInt8) : Prop where
  accepts : ∀ info, parseHeaderBytes bytes = .ok info ↔
    ∃ h : Header, h.SizesKnown ∧ h.bytes = bytes ∧ h.info = info
  inside : parseHeaderBytes bytes ≠ .error .outside
  ends : parseHeaderBytes bytes ≠ .error .exhausted

/-- The parser is exact except on the headers with a size field of ones. -/
theorem parsesExactly_iff (bytes : List UInt8) :
    ParsesExactly bytes ↔ ∀ h : Header, h.bytes = bytes → h.SizesKnown := by
  constructor
  · rintro ⟨haccepts, -, -⟩ h rfl
    obtain ⟨h', hknown, heq, -⟩ := (haccepts h.info).mp (parseHeaderBytes_complete h)
    rwa [Header.bytes_inj heq] at hknown
  · intro hknown
    rcases parseHeaderBytes_sound bytes with hrej | ⟨h, rfl, hok⟩
    · refine ⟨fun info => ?_, by simp [hrej], by simp [hrej]⟩
      rw [hrej]
      refine ⟨nofun, ?_⟩
      rintro ⟨h, -, rfl, -⟩
      rw [parseHeaderBytes_complete] at hrej
      cases hrej
    · refine ⟨fun info => ?_, by simp [hok], by simp [hok]⟩
      rw [hok]
      constructor
      · rintro ⟨⟩
        exact ⟨h, hknown h rfl, rfl, rfl⟩
      · rintro ⟨h', -, heq, rfl⟩
        rw [Header.bytes_inj heq]

/-! ## A header of unknown size -/

/-- A DocType with a value of less than 127 bytes. -/
def docTypeElement (value : List UInt8) (h : value.length < 127) : Element :=
  ⟨2, 0x282, 1, value, by decide, by decide, by decide, oneByte_pos, oneByte_le, by omega⟩

/-- 127 bytes behind a size field of ones. -/
def unknownHeader : Header :=
  ⟨1, [], docTypeElement [0x77, 0x65, 0x62, 0x6D] (by decide), List.replicate 120 0, [], oneByte_pos, oneByte_le, by decide,
    not_isDocType_nil, by decide +kernel⟩

theorem unknownHeader_bytes :
    unknownHeader.bytes = [0x1A, 0x45, 0xDF, 0xA3, 0xFF, 0x42, 0x82, 0x84, 0x77, 0x65, 0x62, 0x6D] ++
      List.replicate 120 0 := by
  decide +kernel

/-- The parser accepts a header of unknown size. -/
theorem unknown_size_accepted :
    ¬ ParsesExactly ([0x1A, 0x45, 0xDF, 0xA3, 0xFF, 0x42, 0x82, 0x84, 0x77, 0x65, 0x62, 0x6D] ++
      List.replicate 120 0) := by
  rw [← unknownHeader_bytes]
  intro hexact
  obtain ⟨h, ⟨hknown, -⟩, heq, -⟩ := (hexact.accepts _).mp (parseHeaderBytes_complete unknownHeader)
  rw [Header.bytes_inj heq] at hknown
  exact hknown (by decide +kernel)

end MkvCodec.Container
