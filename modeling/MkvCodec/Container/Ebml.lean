import MkvCodec.Data.Prefixed

/-!
# EBML headers

`read_vint`, `parse_header_bytes` and `write_size` of `container_ebml.cpp`. A position in a buffer is a `Nat`, a number
that comes out of the file a `UInt64`.
-/

namespace MkvCodec.Container

/-! ## Reading -/

/-- How a function that reads a buffer ends without a result: it returns false, it reads behind the buffer, or its loop
has not ended. -/
inductive Stop
  | rejected
  | outside
  | exhausted
  deriving DecidableEq, Repr

def byteAt (data : List UInt8) (position : Nat) : Except Stop UInt8 :=
  match data[position]? with
  | some byte => .ok byte
  | none => .error .outside

/-- What `read_vint` reports, with the position behind it. -/
structure Vint where
  value : UInt64
  width : Nat
  next : Nat
  deriving DecidableEq, Repr

/-- The loop of `read_vint` over the mask, which runs at most 8 times. -/
def findMarker (first : UInt8) : Nat → UInt8 → Nat → Option (UInt8 × Nat)
  | 0, _, _ => none
  | fuel + 1, mask, width =>
      if first &&& mask = 0 then findMarker first fuel (mask >>> 1) (width + 1) else some (mask, width)

/-- The loop of `read_vint` over the other bytes. -/
def readTail (data : List UInt8) (position : Nat) : Nat → Nat → UInt64 → Except Stop UInt64
  | 0, _, value => .ok value
  | count + 1, index, value => do
      let byte ← byteAt data (position + index)
      readTail data position count (index + 1) ((value <<< 8) ||| byte.toUInt64)

def readVint (data : List UInt8) (position : Nat) (keepMarker : Bool) : Except Stop Vint :=
  if data.length ≤ position then .error .rejected
  else do
    let first ← byteAt data position
    if first = 0 then .error .rejected
    else
      match findMarker first 8 0x80 1 with
      | none => .error .rejected
      | some (mask, width) =>
          if data.length < position + width then .error .rejected
          else do
            let value ← readTail data position (width - 1) 1
              (if keepMarker then first else first &&& ~~~mask).toUInt64
            .ok ⟨value, width, position + width⟩

def kEbmlHeader : UInt64 := 0x1A45DFA3

def kDocType : UInt64 := 0x4282

/-- `HeaderInfo`. -/
structure HeaderInfo where
  payloadSizePosition : Nat
  payloadSizeWidth : Nat
  payloadSize : UInt64
  headerEnd : Nat
  docSizePosition : Nat
  docSizeWidth : Nat
  docValuePosition : Nat
  docValueSize : Nat
  docType : List UInt8
  deriving DecidableEq, Repr

/-- The loop of `parse_header_bytes` over the elements. -/
def scanElements (bytes : List UInt8) (sizePosition : Nat) (size : Vint) (headerEnd : Nat) :
    Nat → Nat → Except Stop HeaderInfo
  | 0, _ => .error .exhausted
  | fuel + 1, position =>
      if headerEnd ≤ position then .error .rejected
      else do
        let id ← readVint bytes position true
        if headerEnd < id.next then .error .rejected
        else do
          let elementSize ← readVint bytes id.next false
          if headerEnd < elementSize.next ∨ headerEnd - elementSize.next < elementSize.value.toNat then .error .rejected
          else if id.value = kDocType then
            .ok
              { payloadSizePosition := sizePosition, payloadSizeWidth := size.width, payloadSize := size.value
                headerEnd := headerEnd, docSizePosition := id.next, docSizeWidth := elementSize.width
                docValuePosition := elementSize.next, docValueSize := elementSize.value.toNat
                docType := (bytes.drop elementSize.next).take elementSize.value.toNat }
          else scanElements bytes sizePosition size headerEnd fuel (elementSize.next + elementSize.value.toNat)

def parseHeaderBytes (bytes : List UInt8) : Except Stop HeaderInfo := do
  let id ← readVint bytes 0 true
  if id.value ≠ kEbmlHeader then .error .rejected
  else do
    let size ← readVint bytes id.next false
    if bytes.length - size.next < size.value.toNat then .error .rejected
    else scanElements bytes id.next size (size.next + size.value.toNat) (bytes.length + 1) size.next

/-! ## Writing -/

/-- The loop of `write_size`, from the last byte of the field to its first. -/
def writeBytes (data : List UInt8) (position width : Nat) : Nat → Nat → UInt64 → List UInt8
  | 0, _, _ => data
  | count + 1, index, value =>
      writeBytes (data.set (position + width - 1 - index) (value &&& 0xFF).toUInt8) position width count (index + 1)
        (value >>> 8)

/-- `write_size`, for a position and a width inside the data. -/
def writeSize (data : List UInt8) (position width : Nat) (value : UInt64) : Option (List UInt8) :=
  let limit : UInt64 := if width = 8 then 0xFFFFFFFFFFFFFFFF else (1 <<< UInt64.ofNat (7 * width)) - 1
  if limit ≤ value then none
  else some ((writeBytes data position width width 0 value).modify position (· ||| 1 <<< UInt8.ofNat (8 - width)))

end MkvCodec.Container
