import MkvCodec.Data.RowMajor
import MkvCodec.Decoder.State
import MkvCodec.Frame.View

/-!
# The CPU VP9 backend of a decoder

`read_frame` of `cpu_vp9_decoder_runtime.cpp`. A read is a loop over calls into the demuxer and into libvpx; what
these answer is the environment's. Of libvpx it is used that `vpx_codec_get_frame` gives the images of the last
decode call one after the other, and then none until the next.
-/

namespace MkvCodec.Decoder

/-- `EncodedPacket`. -/
structure EncodedPacket where
  data : List UInt8
  ptsNs : Int

/-- The part of `vpx_image_t` that `copy_image` reads. `userPriv` names the packet whose time stamp
`user_priv` points to. -/
structure Image where
  i420 : Bool
  width : Nat
  height : Nat
  userPriv : Option Nat
  planes : Fin 3 → Plane
  strides : Fin 3 → Int

/-- `DecodedFrame`. -/
structure DecodedFrame where
  width : Nat
  height : Nat
  ptsNs : Int
  pixels : List UInt8
  offsets : Fin 3 → Nat
  strides : Fin 3 → Int

/-- What `WebmPacketReader::read` answers. -/
inductive DemuxAnswer
  | packet (packet : EncodedPacket)
  | endOfStream
  | failed (error : String)

/-- What `vpx_codec_decode` answers, with the images that it leaves for `vpx_codec_get_frame`. -/
structure DecodeAnswer where
  error : Option String
  images : List Image

/-- The answer to one call of a read; or the call, or an allocation at this point, throws. -/
inductive Answer
  | demux (answer : DemuxAnswer)
  | decode (answer : DecodeAnswer)
  | threw (what : Option String)

/-- `CpuVp9Decoder::Impl`. `ready` holds the images that the codec has left to give, `submitted` the packets
that are kept for their time stamps, each under its number, and `fed` all packets ever given to the codec,
for specifications only. -/
structure Vp9 where
  ready : List Image
  submitted : List (Nat × EncodedPacket)
  fed : List EncodedPacket
  demuxEos : Bool
  drained : Bool
  closed : Bool

/-- A decoder that has just been created. -/
def Vp9.opened : Vp9 := ⟨[], [], [], false, false, false⟩

/-! ## Images -/

def Image.supported (image : Image) : Bool :=
  image.i420 && decide (image.width ≠ 0) && decide (image.height ≠ 0) && decide (image.width % 2 = 0) &&
    decide (image.height % 2 = 0)

/-- The visible bytes of a plane. The offset of a row is computed in `uint32_t`. -/
def Image.rows (image : Image) (index : Fin 3) (rowBytes rows : Nat) : List UInt8 :=
  RowMajor.store rows rowBytes fun row column =>
    (image.planes index).bytes (u32 (row * (image.strides index % 2 ^ 32).toNat) + column)

/-- `copy_image`; `none` when it returns null. -/
def copyImage (image : Image) (ptsNs : Int) : Option DecodedFrame :=
  if image.supported then
    some
      { width := image.width, height := image.height, ptsNs := ptsNs
        pixels := image.rows 0 image.width image.height ++ image.rows 1 (image.width / 2) (image.height / 2) ++
          image.rows 2 (image.width / 2) (image.height / 2)
        offsets := ![0, image.width * image.height,
          image.width * image.height + image.width / 2 * (image.height / 2)]
        strides := ![asInt32 image.width, asInt32 (image.width / 2), asInt32 (image.width / 2)] }
  else none

/-- `*pts_pointer`, or 0 without a pointer. What a pointer to a packet that is no longer kept gives is not
defined by the source; here it is 0. -/
def Vp9.pts (b : Vp9) (image : Image) : Int :=
  match image.userPriv with
  | none => 0
  | some number =>
      match b.submitted.find? fun p => p.1 = number with
      | none => 0
      | some (_, packet) => packet.ptsNs

/-- The packet of an image is dropped once the image has been given. -/
def Vp9.forget (b : Vp9) (image : Image) : Vp9 :=
  match image.userPriv with
  | none => b
  | some number => { b with submitted := b.submitted.eraseP fun p => p.1 = number }

/-! ## The read -/

abbrev Vp9Read := ReadEnd DecodedFrame × Vp9

def unsupportedImage : Status := ⟨.errorNotSupported, "decoder produced an unsupported pixel format or dimension"⟩

theorem unsupportedImage_ne_ok : unsupportedImage.result ≠ .ok := Result.errorNotSupported_ne_ok

def codecError (error : String) : ReadEnd DecodedFrame := .ended ⟨.errorCodec, error⟩ Result.errorCodec_ne_ok

/-- The codec has an image, which is no longer in `b`. -/
def Vp9.give (answers : List Answer) (image : Image) (b : Vp9) : Option Vp9Read :=
  match answers with
  | [] =>
      match copyImage image (b.pts image) with
      | some frame => some (.frame frame, b.forget image)
      | none => some (.ended unsupportedImage unsupportedImage_ne_ok, b.forget image)
  | [.threw what] => some (.threw what, b)
  | _ => none

/-- A packet given to the codec. -/
def Vp9.feed (b : Vp9) (packet : EncodedPacket) (answer : DecodeAnswer) : Vp9 :=
  { b with
    submitted := b.submitted ++ [(b.fed.length, packet)], fed := b.fed ++ [packet], ready := answer.images }

def Vp9.drain (b : Vp9) (answer : DecodeAnswer) : Vp9 := { b with drained := true, ready := answer.images }

/-- The loop of `read_frame`. The answers are those to the calls of this read, no fewer and no more. -/
def readFrame : List Answer → Vp9 → Option Vp9Read
  | answers, b =>
    match b.ready with
    | image :: rest => Vp9.give answers image { b with ready := rest }
    | [] =>
        if !b.demuxEos then
          match answers with
          | [.threw what] => some (.threw what, b)
          | [.demux (.failed error)] => some (.ended ⟨.errorIo, error⟩ Result.errorIo_ne_ok, b)
          | .demux .endOfStream :: rest => readFrame rest { b with demuxEos := true }
          | [.demux (.packet _), .threw what] => some (.threw what, b)
          | .demux (.packet packet) :: .decode answer :: rest =>
              match answer.error, rest with
              | some error, [] => some (codecError error, b.feed packet answer)
              | some _, _ :: _ => none
              | none, rest => readFrame rest (b.feed packet answer)
          | _ => none
        else if !b.drained then
          match answers with
          | .decode answer :: rest =>
              match answer.error, rest with
              | some error, [] => some (codecError error, b.drain answer)
              | some _, _ :: _ => none
              | none, rest => readFrame rest (b.drain answer)
          | _ => none
        else
          match answers with
          | [] => some (.ended ⟨.endOfStream, ""⟩ Result.endOfStream_ne_ok, b)
          | _ => none

/-- `CpuVp9Decoder::read`. -/
def Vp9.read (answers : List Answer) (b : Vp9) : Option Vp9Read :=
  if b.closed then
    match answers with
    | [] => some (.ended ⟨.errorInvalidState, "decoder is closed"⟩ Result.errorInvalidState_ne_ok, b)
    | _ => none
  else readFrame answers b

/-- `CpuVp9Decoder::close`. -/
def Vp9.close (b : Vp9) : Status × Vp9 :=
  if b.closed then (.ok, b) else (.ok, { b with ready := [], submitted := [], closed := true })

def vp9 : Backend DecodedFrame Vp9 (List Answer) := ⟨Vp9.read, Vp9.close⟩

end MkvCodec.Decoder
