import MkvCodec.Decoder.Turns

/-!
# The CPU AV1 backend of a decoder

`read_frame` of `cpu_av1_decoder_runtime.cpp`, turn by turn. Of libaom it is used that `aom_codec_get_frame` gives the images of the last
decode call one after the other, and then says once that there is none.
-/

namespace MkvCodec.Decoder

/-! ## Images -/

def kAomImgFmtI420 : Int := 0x102
def kAomImgFmtI42016 : Int := 0x902

/-- The part of `aom_image_t` that `copy_image` reads. -/
structure AomImage where
  fmt : Int
  bitDepth : Nat
  width : Nat
  height : Nat
  userPriv : Option Nat
  planes : Fin 3 → Plane
  strides : Fin 3 → Int

def AomImage.byteI420 (image : AomImage) : Bool := image.fmt = kAomImgFmtI420

def AomImage.wordI420 (image : AomImage) : Bool := decide (image.fmt = kAomImgFmtI42016) && decide (image.bitDepth = 8)

def AomImage.supported (image : AomImage) : Bool :=
  (image.byteI420 || image.wordI420) && decide (image.width ≠ 0) && decide (image.height ≠ 0) && decide (image.width % 2 = 0) &&
    decide (image.height % 2 = 0)

/-- The visible bytes of a plane. Of a 16-bit sample it is the low byte, which comes first. -/
def AomImage.rows (image : AomImage) (index : Fin 3) (rowBytes rows : Nat) : List UInt8 :=
  RowMajor.store rows rowBytes fun row column =>
    (image.planes index).bytes
      (u32 (row * (image.strides index % 2 ^ 32).toNat) + if image.byteI420 then column else 2 * column)

/-- `copy_image`; `none` when it returns null. -/
def copyAomImage (image : AomImage) (ptsNs : Int) : Option DecodedFrame :=
  if image.supported then
    some
      { width := image.width, height := image.height, ptsNs := ptsNs
        pixels := image.rows 0 image.width image.height ++ image.rows 1 (image.width / 2) (image.height / 2) ++
          image.rows 2 (image.width / 2) (image.height / 2)
        offsets := ![0, image.width * image.height,
          image.width * image.height + image.width / 2 * (image.height / 2)]
        strides := ![asInt32 image.width, asInt32 (image.width / 2), asInt32 (image.width / 2)] }
  else none

def unsupportedAomImage (image : AomImage) : Status :=
  ⟨.errorNotSupported, "libaom produced unsupported format=" ++ toString image.fmt ++ " size=" ++ toString image.width ++ "x" ++
    toString image.height ++ " bit_depth=" ++ toString image.bitDepth⟩

theorem unsupportedAomImage_ne_ok (image : AomImage) : (unsupportedAomImage image).result ≠ .ok :=
  Result.errorNotSupported_ne_ok

/-! ## State -/

/-- The answer to one call of a read; or the call, or an allocation at this point, throws. -/
inductive Av1Answer
  | demux (answer : DemuxAnswer)
  | decode (error : Option String) (images : List AomImage)
  | threw (what : Option String)

/-- `CpuAv1Decoder::Impl`. `ready` holds the images that the codec has left to give, until it has said that there is none. Packets are
numbered as in `Vp9`. -/
structure Av1 where
  ready : Option (List AomImage)
  submitted : List (Nat × EncodedPacket)
  fed : List EncodedPacket
  outputPending : Bool
  activePts : Option Nat
  demuxEos : Bool
  closed : Bool

def Av1.opened : Av1 := ⟨none, [], [], false, none, false, false⟩

/-- `*pts_pointer`, or 0 without a pointer, as in `Vp9.pts`. -/
def Av1.pts (b : Av1) (image : AomImage) : Int :=
  match image.userPriv with
  | none => 0
  | some number =>
      match b.submitted.find? fun p => p.1 = number with
      | none => 0
      | some (_, packet) => packet.ptsNs

def Av1.keeps (b : Av1) : Option Nat → Bool
  | none => true
  | some number => b.submitted.any fun p => p.1 = number

/-! ## The read -/

def Av1.give (answers : List Av1Answer) (image : AomImage) (b : Av1) : Option (ReadEnd DecodedFrame × Av1) :=
  match answers with
  | [] =>
      match copyAomImage image (b.pts image) with
      | some frame => some (.frame frame, b)
      | none => some (.ended (unsupportedAomImage image) (unsupportedAomImage_ne_ok image), b)
  | [.threw what] => some (.threw what, b)
  | _ => none

/-- The codec has said that there is no image left: the packet is dropped. -/
def Av1.release (b : Av1) : Av1 :=
  { b with
    ready := none, outputPending := false, activePts := none
    submitted :=
      match b.activePts with
      | none => b.submitted
      | some number => b.submitted.eraseP fun p => p.1 = number }

/-- A packet given to the codec. Nothing is asked for behind a decode call that has failed. -/
def Av1.feed (b : Av1) (packet : EncodedPacket) (error : Option String) (images : List AomImage) : Av1 :=
  { b with
    submitted := b.submitted ++ [(b.fed.length, packet)], fed := b.fed ++ [packet], ready := some images
    outputPending := if error.isSome then b.outputPending else true
    activePts := if error.isSome then b.activePts else some b.fed.length }

/-- The turn that reads a packet and decodes it. -/
def Av1.packetTurn (b : Av1) : List Av1Answer → Option (Event AomImage × Av1)
  | [.threw what] => some (.stopped (.threw what), b)
  | [.demux (.failed error)] => some (.stopped (.ended ⟨.errorIo, error⟩ Result.errorIo_ne_ok), b)
  | [.demux .endOfStream] => some (.demuxEnded, { b with demuxEos := true })
  | [.demux (.packet _), .threw what] => some (.stopped (.threw what), b)
  | [.demux (.packet packet), .decode error images] => some (.decoded error images, b.feed packet error images)
  | _ => none

/-- The part of a turn behind the images. -/
def Av1.restTurn (b : Av1) (answers : List Av1Answer) : Option (Event AomImage × Av1) :=
  if !b.demuxEos then b.packetTurn answers
  else if answers.isEmpty then some (.finished, b)
  else none

/-- A turn of the loop of `read_frame`. -/
def Av1.turn (b : Av1) (answers : List Av1Answer) : Option (Event AomImage × Av1) :=
  if b.outputPending then
    match b.ready with
    | some (image :: rest) =>
        (Av1.give answers image { b with ready := some rest }).map fun r => (.took image (b.keeps image.userPriv) r.1, r.2)
    | _ => b.release.restTurn answers
  else b.restTurn answers

/-- `read_frame`, from the answers of its turns. -/
def Av1.readFrame (turns : List (List Av1Answer)) (b : Av1) : Option (ReadEnd DecodedFrame × Av1) := loop Av1.turn turns b

/-- `CpuAv1Decoder::read`. -/
def Av1.read (turns : List (List Av1Answer)) (b : Av1) : Option (ReadEnd DecodedFrame × Av1) :=
  if b.closed then
    if turns.isEmpty then some (.ended ⟨.errorInvalidState, "decoder is closed"⟩ Result.errorInvalidState_ne_ok, b)
    else none
  else Av1.readFrame turns b

/-- `CpuAv1Decoder::close`. -/
def Av1.close (b : Av1) : Status × Av1 :=
  if b.closed then (.ok, b) else (.ok, { b with ready := none, submitted := [], closed := true })

def av1 : Backend DecodedFrame Av1 (List (List Av1Answer)) := ⟨Av1.read, Av1.close⟩

end MkvCodec.Decoder
