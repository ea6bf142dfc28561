import MkvCodec.Container.Lemmas.Vint

/-!
# The grammar of an EBML header

An EBML header as its bytes are written: the EBML id, a size field, and a payload of elements up to the first DocType.
`parse_header_bytes` accepts the headers of this grammar and reports where their parts are.
-/

namespace MkvCodec.Container

open Prefixed

/-! ## Elements -/

/-- An element: an id, a size field and as many bytes as the size says. -/
@[ext] structure Element where
  idWidth : Nat
  id : Nat
  sizeWidth : Nat
  body : List UInt8
  idWidth_pos : 1 ≤ idWidth
  idWidth_le : idWidth ≤ 8
  id_lt : id < 2 ^ (7 * idWidth)
  sizeWidth_pos : 1 ≤ sizeWidth
  sizeWidth_le : sizeWidth ≤ 8
  body_lt : body.length < 2 ^ (7 * sizeWidth)

namespace Element

def idBytes (e : Element) : List UInt8 := field e.idWidth e.id

def bytes (e : Element) : List UInt8 := e.idBytes ++ (field e.sizeWidth e.body.length ++ e.body)

def IsDocType (e : Element) : Prop := e.idBytes = [0x42, 0x82]

/-- The size field is not the reserved pattern of ones, which stands for an unknown size. -/
def SizeKnown (e : Element) : Prop := e.body.length ≠ 2 ^ (7 * e.sizeWidth) - 1

instance (e : Element) : Decidable e.IsDocType := inferInstanceAs (Decidable (_ = _))

@[simp] theorem length_bytes (e : Element) : e.bytes.length = e.idWidth + (e.sizeWidth + e.body.length) := by
  simp [bytes, idBytes]

theorem bytes_append_inj {e e' : Element} {rest rest' : List UInt8} (h : e.bytes ++ rest = e'.bytes ++ rest') :
    e = e' ∧ rest = rest' := by
  simp only [bytes, idBytes, List.append_assoc] at h
  obtain ⟨hid, hn, h⟩ := field_append_inj e.idWidth_pos e.idWidth_le e.id_lt e'.idWidth_pos e'.idWidth_le e'.id_lt h
  obtain ⟨hsize, hlen, h⟩ :=
    field_append_inj e.sizeWidth_pos e.sizeWidth_le e.body_lt e'.sizeWidth_pos e'.sizeWidth_le e'.body_lt h
  obtain ⟨hbody, hrest⟩ := List.append_inj h hlen
  exact ⟨Element.ext hid hn hsize hbody, hrest⟩

end Element

def elementBytes (elements : List Element) : List UInt8 := elements.flatMap Element.bytes

@[simp] theorem elementBytes_cons (e : Element) (elements : List Element) :
    elementBytes (e :: elements) = e.bytes ++ elementBytes elements := rfl

/-! ## Headers -/

def ebmlId : List UInt8 := [0x1A, 0x45, 0xDF, 0xA3]

/-- Size fields of one byte. -/
theorem oneByte_pos : 1 ≤ 1 := Nat.le_refl 1
theorem oneByte_le : 1 ≤ 8 := by decide

theorem not_isDocType_nil : ∀ e ∈ ([] : List Element), ¬ e.IsDocType := nofun

/-- A buffer that begins with an EBML header: the elements before the first DocType, the DocType, what else is in the
payload, and what follows the header. -/
@[ext] structure Header where
  sizeWidth : Nat
  before : List Element
  docType : Element
  after : List UInt8
  rest : List UInt8
  sizeWidth_pos : 1 ≤ sizeWidth
  sizeWidth_le : sizeWidth ≤ 8
  isDocType : docType.IsDocType
  first : ∀ e ∈ before, ¬ e.IsDocType
  payload_lt : (elementBytes before ++ (docType.bytes ++ after)).length < 2 ^ (7 * sizeWidth)

namespace Header

def payload (h : Header) : List UInt8 := elementBytes h.before ++ (h.docType.bytes ++ h.after)

theorem length_payload_lt (h : Header) : h.payload.length < 2 ^ (7 * h.sizeWidth) := h.payload_lt

def bytes (h : Header) : List UInt8 := ebmlId ++ (field h.sizeWidth h.payload.length ++ (h.payload ++ h.rest))

/-- The end of the size field of the header. -/
def payloadPosition (h : Header) : Nat := 4 + h.sizeWidth

def docPosition (h : Header) : Nat := h.payloadPosition + (elementBytes h.before).length

def info (h : Header) : HeaderInfo where
  payloadSizePosition := 4
  payloadSizeWidth := h.sizeWidth
  payloadSize := UInt64.ofNat h.payload.length
  headerEnd := h.payloadPosition + h.payload.length
  docSizePosition := h.docPosition + h.docType.idWidth
  docSizeWidth := h.docType.sizeWidth
  docValuePosition := h.docPosition + h.docType.idWidth + h.docType.sizeWidth
  docValueSize := h.docType.body.length
  docType := h.docType.body

/-- No size field up to the DocType is the reserved pattern of ones. -/
def SizesKnown (h : Header) : Prop :=
  h.payload.length ≠ 2 ^ (7 * h.sizeWidth) - 1 ∧ ∀ e ∈ h.before ++ [h.docType], e.SizeKnown

theorem elements_inj {before before' : List Element} {doc doc' : Element} {after after' : List UInt8}
    (hdoc : doc.IsDocType) (hdoc' : doc'.IsDocType) (hfirst : ∀ e ∈ before, ¬ e.IsDocType)
    (hfirst' : ∀ e ∈ before', ¬ e.IsDocType)
    (h : elementBytes before ++ (doc.bytes ++ after) = elementBytes before' ++ (doc'.bytes ++ after')) :
    before = before' ∧ doc = doc' ∧ after = after' := by
  induction before generalizing before' with
  | nil =>
      cases before' with
      | nil =>
          obtain ⟨rfl, rfl⟩ := Element.bytes_append_inj h
          exact ⟨rfl, rfl, rfl⟩
      | cons e' before' =>
          rw [elementBytes_cons, List.append_assoc] at h
          obtain ⟨rfl, -⟩ := Element.bytes_append_inj h
          exact absurd hdoc (hfirst' _ List.mem_cons_self)
  | cons e before ih =>
      cases before' with
      | nil =>
          rw [elementBytes_cons, List.append_assoc] at h
          obtain ⟨rfl, -⟩ := Element.bytes_append_inj h
          exact absurd hdoc' (hfirst _ List.mem_cons_self)
      | cons e' before' =>
          rw [elementBytes_cons, elementBytes_cons, List.append_assoc, List.append_assoc] at h
          obtain ⟨rfl, htail⟩ := Element.bytes_append_inj h
          obtain ⟨rfl, rfl, rfl⟩ := ih (fun e he => hfirst e (List.mem_cons_of_mem _ he))
            (fun e he => hfirst' e (List.mem_cons_of_mem _ he)) htail
          exact ⟨rfl, rfl, rfl⟩

/-- The bytes of a header tell all its parts. -/
theorem bytes_inj {h h' : Header} (heq : h.bytes = h'.bytes) : h = h' := by
  simp only [bytes, List.append_cancel_left_eq] at heq
  obtain ⟨hwidth, hlen, heq⟩ :=
    field_append_inj h.sizeWidth_pos h.sizeWidth_le h.length_payload_lt h'.sizeWidth_pos h'.sizeWidth_le
      h'.length_payload_lt heq
  obtain ⟨hpayload, hrest⟩ := List.append_inj heq hlen
  obtain ⟨hbefore, hdoc, hafter⟩ := elements_inj h.isDocType h'.isDocType h.first h'.first hpayload
  exact Header.ext hwidth hbefore hdoc hafter hrest

end Header

end MkvCodec.Container
