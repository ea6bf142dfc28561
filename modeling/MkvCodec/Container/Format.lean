import MkvCodec.Container.Ebml

/-!
# The DocType of a finished container

`read_header` of `container_ebml.cpp`, `validate_container_doc_type` and `finalize_container_doc_type` of
`container_format.cpp`. How far each operation of a stream or of the file system gets is up to the environment.
-/

namespace MkvCodec.Container

/-- `ContainerFormat`. -/
inductive ContainerFormat
  | webM
  | matroska
  deriving DecidableEq

/-- `webm` as bytes. -/
def webmBytes : List UInt8 := [0x77, 0x65, 0x62, 0x6D]

/-- `matroska` as bytes. -/
def matroskaBytes : List UInt8 := [0x6D, 0x61, 0x74, 0x72, 0x6F, 0x73, 0x6B, 0x61]

def ContainerFormat.docType : ContainerFormat → List UInt8
  | .webM => webmBytes
  | .matroska => matroskaBytes

/-! ## Reading a header -/

/-- How the stream of `read_header` behaves: whether the file opens, and how many bytes a read delivers at most. -/
structure HeaderIo where
  opens : Bool
  delivers : Nat

/-- The bytes that `read_header` asks for. -/
def headerWindow : Nat := 4096

def HeaderIo.window (io : HeaderIo) (file : List UInt8) : List UInt8 := (file.take headerWindow).take io.delivers

def readHeader (io : HeaderIo) (file : List UInt8) : Except String (List UInt8 × HeaderInfo) :=
  if io.opens then
    match parseHeaderBytes (io.window file) with
    | .ok info => .ok (io.window file, info)
    | .error _ => .error "invalid or unsupported EBML header"
  else .error "failed to open container header"

def validateContainerDocType (io : HeaderIo) (format : ContainerFormat) (file : List UInt8) : Except String Unit :=
  match readHeader io file with
  | .error error => .error error
  | .ok (_, info) =>
      if info.docType = format.docType then .ok () else .error "container extension and EBML DocType disagree"

/-! ## Rewriting a container -/

/-- How a turn of the copy loop behaves: how many bytes its read delivers and its write puts out at most. -/
structure ChunkIo where
  delivers : Nat
  writes : Nat

/-- How the operations of `finalize_container_doc_type` behave. -/
structure FinalizeIo where
  header : HeaderIo
  inputOpens : Bool
  outputOpens : Bool
  headerWrites : Nat
  seeks : Bool
  copies : Nat → ChunkIo
  flushes : Bool
  closes : Bool
  renames : Bool
  removes : Bool
  check : HeaderIo

/-- The container and the temporary file next to it. -/
structure Files where
  destination : List UInt8
  temporary : Option (List UInt8)

/-- The `ofstream` of the temporary file. -/
structure Output where
  content : List UInt8
  good : Bool

/-- A write that does not take all its bytes leaves the stream bad, and a bad stream takes none. -/
def Output.write (output : Output) (writes : Nat) (bytes : List UInt8) : Output :=
  if output.good then ⟨output.content ++ bytes.take writes, decide (bytes.length ≤ writes)⟩ else output

/-- The size of the copy buffer. -/
def bufferSize : Nat := 1024 * 1024

/-- The copy loop from a turn on, with the bytes that are left to read. A read that delivers less than it was asked for
leaves the stream bad, at the end of the file or before it. -/
def copyBody (copies : Nat → ChunkIo) (turn : Nat) (left : List UInt8) (output : Output) : Output :=
  let count := min (copies turn).delivers (min bufferSize left.length)
  let written := output.write (copies turn).writes (left.take count)
  if count = bufferSize then copyBody copies (turn + 1) (left.drop count) written else written
termination_by left.length
decreasing_by
  simp only [List.length_drop, bufferSize] at *
  omega

/-- The header with the DocType of Matroska. -/
def replaceDocType (bytes : List UInt8) (info : HeaderInfo) : Option (List UInt8) := do
  let delta := UInt64.ofNat matroskaBytes.length - UInt64.ofNat info.docValueSize
  let header := bytes.take info.headerEnd
  let header := header.take info.docValuePosition ++ header.drop (info.docValuePosition + info.docValueSize)
  let header := header.take info.docValuePosition ++ (matroskaBytes ++ header.drop info.docValuePosition)
  let header ← writeSize header info.docSizePosition info.docSizeWidth (UInt64.ofNat matroskaBytes.length)
  writeSize header info.payloadSizePosition info.payloadSizeWidth (info.payloadSize + delta)

/-- What the temporary file gets, and whether its stream is good at the end. -/
def FinalizeIo.copy (io : FinalizeIo) (header : List UInt8) (body : List UInt8) : Output :=
  let output := Output.write ⟨[], true⟩ io.headerWrites header
  let output := if io.seeks then copyBody io.copies 0 body output else output
  { output with good := output.good && io.flushes && io.closes }

/-- The part of `finalize_container_doc_type` behind the checks of the header. -/
def installMatroska (io : FinalizeIo) (header : List UInt8) (headerEnd : Nat) (files : Files) :
    Except String Unit × Files :=
  if io.inputOpens && io.outputOpens then
    let output := io.copy header (files.destination.drop headerEnd)
    if output.good && io.renames then
      (validateContainerDocType io.check .matroska output.content, ⟨output.content, none⟩)
    else
      (.error "failed to atomically install Matroska output",
        { files with temporary := if io.removes then none else some output.content })
  else
    (.error "failed to create Matroska replacement",
      { files with temporary := if io.outputOpens then some [] else files.temporary })

def finalizeContainerDocType (io : FinalizeIo) (format : ContainerFormat) (files : Files) :
    Except String Unit × Files :=
  match format with
  | .webM => (validateContainerDocType io.header .webM files.destination, files)
  | .matroska =>
      match readHeader io.header files.destination with
      | .error error => (.error error, files)
      | .ok (bytes, info) =>
          if info.docType = webmBytes then
            match replaceDocType bytes info with
            | none => (.error "Matroska DocType does not fit the existing EBML size fields", files)
            | some header => installMatroska io header info.headerEnd files
          else (.error "libwebm output did not contain WebM DocType", files)

end MkvCodec.Container
