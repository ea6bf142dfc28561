import MkvCodec.Concurrency.Transition
import MkvCodec.Python.GpuImage

/-!
# GPU processors

`GpuProcessor.convert` of `api/processor.py`: the source is retained, an adapter makes an image, and the image takes the
retained frame over before it is checked. What the source and the adapters answer is decided outside.
-/

namespace MkvCodec.Python

open Concurrency (Run)

/-! ## Requests and their checks -/

inductive ProcessorError
  | valueError (message : String)
  | typeError (message : String)
  | runtimeError (message : String)
  | unavailable (message : String)
  | raised
  deriving DecidableEq

/-- `GpuConversionRequest`. -/
structure GpuConversionRequest where
  format : String
  layout : String
  dtype : String
  colorSpace : String
  colorRange : String

/-- `__post_init__`. -/
def GpuConversionRequest.check (r : GpuConversionRequest) : Except ProcessorError Unit :=
  if r.format ∉ ["rgb", "bgr", "rgba", "bgra"] then
    .error (.valueError "GPU output format must be rgb, bgr, rgba, or bgra")
  else if r.layout ∉ ["hwc", "chw"] then .error (.valueError "GPU output layout must be hwc or chw")
  else if r.dtype ∉ ["uint8", "float16", "float32"] then
    .error (.valueError "GPU output dtype must be uint8, float16, or float32")
  else if r.colorSpace ∉ ["auto", "bt601", "bt709", "bt2020"] then
    .error (.valueError "GPU color_space must be auto, bt601, bt709, or bt2020")
  else if r.colorRange ∉ ["auto", "limited", "full"] then
    .error (.valueError "GPU color_range must be auto, limited, or full")
  else .ok ()

/-- What `descriptor` has of a source. -/
structure SourceDescriptor where
  deviceId : Int
  width : Int
  height : Int
  ptsNs : Option Int

/-- A source and what it answers; `none` and `false` are exceptions. -/
structure GpuSource where
  backend : Option String
  retains : Bool
  descriptor : Option SourceDescriptor
  backendAgain : Option String

/-- The part of the metadata that an adapter has no choice about. -/
structure FixedMetadata where
  backend : String
  deviceId : Int
  width : Int
  height : Int
  format : String
  layout : String
  dtype : String
  shape : List Int
  ptsNs : Int
  adapter : String
  deriving DecidableEq

def expectedMetadata (backend : String) (d : SourceDescriptor) (r : GpuConversionRequest) (adapter : String) :
    FixedMetadata :=
  let channels : Int := if r.format ∈ ["rgb", "bgr"] then 3 else 4
  let shape := if r.layout = "hwc" then [d.height, d.width, channels] else [channels, d.height, d.width]
  ⟨backend, d.deviceId, d.width, d.height, r.format, r.layout, r.dtype, shape, d.ptsNs.getD (-1), adapter⟩

def GpuImageInfo.observedMetadata (i : GpuImageInfo) : FixedMetadata :=
  ⟨i.backend, i.deviceId, i.width, i.height, i.format, i.layout, i.dtype, i.shape, i.ptsNs, i.adapter⟩

/-- `GpuProcessor._validate_output`. -/
def validateOutput (source : GpuSource) (r : GpuConversionRequest) (adapter : String) (info : GpuImageInfo) :
    Except ProcessorError Unit :=
  match source.descriptor, source.backendAgain with
  | none, _ => .error .raised
  | _, none => .error .raised
  | some d, some backend =>
      if info.observedMetadata ≠ expectedMetadata backend d r adapter then
        .error (.valueError "GPU processor adapter returned mismatched image metadata")
      else if info.colorSpace ∉ ["bt601", "bt709", "bt2020"] then
        .error (.valueError "GPU processor adapter returned invalid effective color space")
      else if r.colorSpace ≠ "auto" ∧ info.colorSpace ≠ r.colorSpace then
        .error (.valueError "GPU processor adapter changed the requested color space")
      else if info.colorRange ∉ ["limited", "full"] then
        .error (.valueError "GPU processor adapter returned invalid effective color range")
      else if r.colorRange ≠ "auto" ∧ info.colorRange ≠ r.colorRange then
        .error (.valueError "GPU processor adapter changed the requested color range")
      else if info.copyPath ≠ "gpu_copy" then
        .error (.valueError "packed GPU color conversion must report copy_path='gpu_copy'")
      else .ok ()

/-! ## Adapters -/

/-- An image that an adapter makes, with objects for its owners. It may be closed before it is returned. -/
structure NewImage where
  info : GpuImageInfo
  wait : Bool
  release : Option Nat
  owners : List Nat
  waitBeforeDlpack : Bool
  closed : Bool

def NewImage.image (n : NewImage) : GpuImage :=
  if n.closed then ⟨n.info, false, false, none, [], false, true⟩
  else ⟨n.info, true, n.wait, n.release, n.owners.map .object, n.waitBeforeDlpack, false⟩

/-- What the `convert` of an adapter does: it raises, returns something else than an image, or returns a new image or one that
is there already. -/
inductive AdapterResult
  | raises
  | other
  | made (image : NewImage)
  | known (image : Nat)

/-- An adapter and what it answers; where `supports` is `none` it raises. -/
structure GpuAdapter where
  name : String
  backends : List String
  supports : Option Bool
  result : AdapterResult

/-- The first adapter that supports the request. -/
def selectAdapter (backend : String) : List GpuAdapter → Except ProcessorError (Option GpuAdapter)
  | [] => .ok none
  | adapter :: rest =>
      if backend ∉ adapter.backends then selectAdapter backend rest
      else
        match adapter.supports with
        | none => .error .raised
        | some true => .ok (some adapter)
        | some false => selectAdapter backend rest

/-- What `convert` does before it retains the source. `processor` is the backend of the processor. -/
def chooseAdapter (processor : String) (adapters : List GpuAdapter) (source : GpuSource) (r : GpuConversionRequest) :
    Except ProcessorError GpuAdapter := do
  r.check
  let some backend := source.backend | .error .raised
  if backend ∉ ["intel", "nvidia"] then
    .error (.unavailable s!"unsupported GPU source backend: {backend}")
  if processor ≠ "auto" ∧ processor ≠ backend then
    .error (.unavailable s!"{processor} processor cannot consume a {backend} frame")
  let some adapter ← selectAdapter backend adapters |
    let names := if adapters.isEmpty then "none" else ", ".intercalate (adapters.map (·.name))
    .error (.unavailable (s!"no GPU-only adapter supports {backend} {r.format}/{r.layout}/{r.dtype}; " ++
      s!"registered adapters: {names}"))
  return adapter

/-! ## Conversion -/

/-- The frames that processors have retained, and the images that there are. -/
structure Processing where
  frames : List GpuFrame
  images : List GpuImage

namespace Processing

/-- `retain` of a source gives a new frame with a lease. -/
def retainSource (w : Processing) : Processing := { w with frames := w.frames ++ [⟨false, 0⟩] }

def closeFrame (w : Processing) (f : Nat) : Processing := { w with frames := w.frames.modify f GpuFrame.close }

/-- `close` of an image, with the calls it makes and the failure it raises. -/
def closeImage (w : Processing) (i : Nat) (env : CloseEnv) : List ImageCall × Option ImageCall × Processing :=
  match w.images[i]? with
  | none => ([], none, w)
  | some image =>
      let (c, image) := image.close env w.frames
      (c.calls, c.failure, ⟨c.frames, w.images.set i image⟩)

/-- The image with one more owner. -/
def attached (image : GpuImage) (f : Nat) : GpuImage := { image with owners := image.owners ++ [.frame f] }

/-- `GpuImage._attach_owner` of a retained frame. -/
def attachOwner (w : Processing) (i : Nat) (image : GpuImage) (f : Nat) : Except ProcessorError Unit × Processing :=
  if image.closed then (.error (.runtimeError "GPU image is released"), w.closeFrame f)
  else (.ok (), { w with images := w.images.set i (attached image f) })

/-- What `convert` does with the image `i` that an adapter has returned. -/
def takeOutput (w : Processing) (i : Nat) (image : GpuImage) (f : Nat) (source : GpuSource) (r : GpuConversionRequest)
    (adapter : String) (env : CloseEnv) : Except ProcessorError Nat × Processing :=
  match w.attachOwner i image f with
  | (.error e, w) => (.error e, w.closeFrame f)
  | (.ok (), w) =>
      match validateOutput source r adapter image.info with
      | .ok () => (.ok i, w)
      | .error e => (.error e, (w.closeImage i env).2.2)

/-- `GpuProcessor.convert`. The result is the image. `env` is for the close of an image that is not accepted. -/
def convert (w : Processing) (processor : String) (adapters : List GpuAdapter) (source : GpuSource)
    (r : GpuConversionRequest) (env : CloseEnv) : Except ProcessorError Nat × Processing :=
  match chooseAdapter processor adapters source r with
  | .error e => (.error e, w)
  | .ok adapter =>
      if !source.retains then (.error .raised, w)
      else
        let retained := w.frames.length
        let w := w.retainSource
        match adapter.result with
        | .raises => (.error .raised, w.closeFrame retained)
        | .other => (.error (.typeError "GPU processor adapter must return GpuImage"), w.closeFrame retained)
        | .made new =>
            { w with images := w.images ++ [new.image] }.takeOutput w.images.length new.image retained source r
              adapter.name env
        | .known i =>
            match w.images[i]? with
            | none => (.error (.typeError "GPU processor adapter must return GpuImage"), w.closeFrame retained)
            | some image => w.takeOutput i image retained source r adapter.name env

/-- A conversion, or a `close` by whoever has an image. -/
inductive Op
  | convert (processor : String) (adapters : List GpuAdapter) (source : GpuSource) (r : GpuConversionRequest)
      (env : CloseEnv)
  | close (i : Nat) (env : CloseEnv)

def run (w : Processing) : Op → Processing
  | .convert processor adapters source r env => (w.convert processor adapters source r env).2
  | .close i env => (w.closeImage i env).2.2

/-! ## Who owns a lease -/

/-- How often images own a frame. -/
def owned (images : List GpuImage) (f : Nat) : Nat := (images.map fun image => image.owners.count (.frame f)).sum

/-- A retained frame has one owner and is not released, or none and is released once. -/
structure Sound (w : Processing) : Prop where
  lease : ∀ f frame, w.frames[f]? = some frame →
    frame = ⟨false, 0⟩ ∧ owned w.images f = 1 ∨ frame = ⟨true, 1⟩ ∧ owned w.images f = 0
  fresh : ∀ f, w.frames.length ≤ f → owned w.images f = 0
  closed : ∀ image ∈ w.images, image.closed = true → image.owners = []

variable {w : Processing} {images : List GpuImage} {image image' : GpuImage} {i f : Nat} {env : CloseEnv}

theorem owned_append (images images' : List GpuImage) (f : Nat) :
    owned (images ++ images') f = owned images f + owned images' f := by
  rw [owned, List.map_append, List.sum_append]
  rfl

theorem owned_singleton (image : GpuImage) (f : Nat) : owned [image] f = image.owners.count (.frame f) := rfl

/-- What a change of one image does to the count. -/
theorem owned_set (h : images[i]? = some image) (image' : GpuImage) (f : Nat) :
    owned (images.set i image') f + image.owners.count (.frame f) = owned images f + image'.owners.count (.frame f) := by
  obtain ⟨hi, rfl⟩ := List.getElem?_eq_some_iff.mp h
  obtain ⟨before, after, himages, -, hset⟩ : ∃ before after, images = before ++ images[i] :: after ∧ before.length = i ∧
      images.set i image' = before ++ image' :: after := List.exists_of_set hi
  have hcons : ∀ image : GpuImage, owned (before ++ image :: after) f =
      owned before f + (image.owners.count (.frame f) + owned after f) := fun image => owned_append ..
  have hbefore : owned images f = owned (before ++ images[i] :: after) f := congrArg (owned · f) himages
  rw [hset, hcons, hbefore, hcons]
  omega

theorem owned_eq_zero : owned images f = 0 ↔ ∀ image ∈ images, .frame f ∉ image.owners := by
  induction images with
  | nil => simp [owned]
  | cons image images ih =>
      have hcons : owned (image :: images) f = image.owners.count (.frame f) + owned images f := rfl
      rw [hcons, Nat.add_eq_zero_iff, ih, List.count_eq_zero, List.forall_mem_cons]

/-- When an image owns a frame that is owned once, no other one does. -/
theorem owner_unique (howned : owned images f = 1) (h : images[i]? = some image) (hf : .frame f ∈ image.owners) :
    image.owners.count (.frame f) = 1 ∧
      ∀ j image', images[j]? = some image' → j ≠ i → .frame f ∉ image'.owners := by
  have hset := owned_set h { image with owners := [] } f
  have hpos := List.count_pos_iff.mpr hf
  rw [howned, List.count_nil] at hset
  refine ⟨by omega, fun j image' hj hne => ?_⟩
  have hzero : owned (images.set i { image with owners := [] }) f = 0 := by omega
  refine owned_eq_zero.mp hzero image' (List.mem_of_getElem? (i := j) ?_)
  rw [List.getElem?_set_ne hne.symm]
  exact hj

theorem closeFrame_frames (w : Processing) (f g : Nat) :
    (w.closeFrame f).frames[g]? = if f = g then w.frames[g]?.map GpuFrame.close else w.frames[g]? := by
  rw [closeFrame, List.getElem?_modify]
  split <;> simp

@[simp] theorem closeFrame_closeFrame (w : Processing) (f : Nat) : (w.closeFrame f).closeFrame f = w.closeFrame f := by
  have hframes : ((w.closeFrame f).closeFrame f).frames = (w.closeFrame f).frames := by
    refine List.ext_getElem? fun g => ?_
    rw [closeFrame_frames]
    split
    · rw [closeFrame_frames]
      simp [*, Function.comp_def]
    · rfl
  exact congrArg (Processing.mk · w.images) hframes

theorem retainSource_frames (w : Processing) : w.retainSource.frames[w.frames.length]? = some ⟨false, 0⟩ := by
  simp [retainSource]

theorem count_attached (image : GpuImage) (f : Nat) :
    (attached image f).owners.count (.frame f) = image.owners.count (.frame f) + 1 := by
  rw [attached, List.count_append, List.count_singleton_self]

theorem count_attached_ne {g : Nat} (hne : g ≠ f) :
    (attached image f).owners.count (.frame g) = image.owners.count (.frame g) := by
  simp [attached, List.count_append, hne.symm]

theorem closeImage_of_closed (himage : w.images[i]? = some image) (hclosed : image.closed = true) :
    w.closeImage i env = ([], none, w) := by
  have hself : w.images.set i image = w.images := by
    obtain ⟨hi, rfl⟩ := List.getElem?_eq_some_iff.mp himage
    exact List.set_getElem_self hi
  simp only [Processing.closeImage, himage, GpuImage.close_of_closed hclosed, hself]

namespace Sound

theorem new : Sound ⟨[], []⟩ := ⟨by simp, by simp [owned], by simp⟩

/-- A retained frame that is closed again. -/
theorem retain (h : Sound w) : Sound (w.retainSource.closeFrame w.frames.length) := by
  refine ⟨fun f frame hf => ?_, fun f hf => ?_, h.closed⟩
  · rw [closeFrame_frames] at hf
    split at hf
    · rename_i heq
      subst heq
      rw [retainSource_frames] at hf
      cases hf
      exact .inr ⟨rfl, h.fresh _ (Nat.le_refl _)⟩
    · rename_i hne
      refine h.lease f frame ?_
      rw [retainSource, List.getElem?_append] at hf
      split at hf
      · exact hf
      · rw [List.getElem?_eq_none (by rw [List.length_singleton]; omega)] at hf
        cases hf
  · refine h.fresh f ?_
    simp only [closeFrame, retainSource, List.length_modify, List.length_append, List.length_singleton] at hf
    omega

/-- An image that owns no frame is there. -/
theorem append (h : Sound w) (howners : ∀ f, .frame f ∉ image.owners) (hclosed : image.closed = true → image.owners = []) :
    Sound { w with images := w.images ++ [image] } := by
  have howned : ∀ f, owned (w.images ++ [image]) f = owned w.images f := by
    intro f
    rw [owned_append, owned_singleton, List.count_eq_zero_of_not_mem (howners f)]
    rfl
  refine ⟨fun f frame hf => ?_, fun f hf => ?_, fun image' himage => ?_⟩
  · rw [howned]
    exact h.lease f frame hf
  · exact (howned f).trans (h.fresh f hf)
  · rcases List.mem_append.mp himage with himage | himage
    · exact h.closed image' himage
    · rw [List.mem_singleton.mp himage]
      exact hclosed

/-- An open image takes a retained frame over. -/
theorem attach (h : Sound (w.closeFrame f)) (hf : w.frames[f]? = some ⟨false, 0⟩) (himage : w.images[i]? = some image)
    (hopen : image.closed = false) : Sound { w with images := w.images.set i (attached image f) } := by
  have hother : ∀ g, g ≠ f → owned (w.images.set i (attached image f)) g = owned w.images g := by
    intro g hne
    have hset := owned_set himage (attached image f) g
    rw [count_attached_ne hne] at hset
    omega
  refine ⟨fun g frame hg => ?_, fun g hg => ?_, fun image' hmem => ?_⟩
  · rcases eq_or_ne g f with rfl | hne
    · have hclosed : (w.closeFrame g).frames[g]? = some ⟨true, 1⟩ := by
        rw [closeFrame_frames, if_pos rfl, hf]
        rfl
      have hfree : owned w.images g = 0 := ((h.lease g _ hclosed).resolve_left (by simp)).2
      have hset := owned_set himage (attached image g) g
      rw [count_attached, hfree] at hset
      exact .inl ⟨Option.some.inj (hg.symm.trans hf), by dsimp only; omega⟩
    · dsimp only
      rw [hother g hne]
      refine h.lease g frame ?_
      rw [closeFrame_frames, if_neg hne.symm]
      exact hg
  · have hne : g ≠ f := by
      rintro rfl
      exact absurd (List.getElem?_eq_some_iff.mp hf).1 (Nat.not_lt.mpr hg)
    dsimp only
    rw [hother g hne]
    refine h.fresh g ?_
    rw [closeFrame, List.length_modify]
    exact hg
  · rcases List.mem_or_eq_of_mem_set hmem with hmem | rfl
    · exact h.closed image' hmem
    · exact fun hclosed => absurd (hclosed.symm.trans hopen) nofun

theorem closeImage (h : Sound w) : Sound (w.closeImage i env).2.2 := by
  cases himage : w.images[i]? with
  | none =>
      simp only [Processing.closeImage, himage]
      exact h
  | some image =>
      cases hclosed : image.closed with
      | true =>
          rw [closeImage_of_closed himage hclosed]
          exact h
      | false =>
          simp only [Processing.closeImage, himage]
          have howners : (image.close env w.frames).2.owners = [] := by
            rw [GpuImage.close, if_neg (by simp [hclosed])]
          have hset := owned_set himage (image.close env w.frames).2
          simp only [howners, List.count_nil, Nat.add_zero] at hset
          refine ⟨fun f frame hf => ?_, fun f hf => ?_, fun image' hmem => ?_⟩
          · dsimp only at hf ⊢
            rw [GpuImage.close_frames hclosed] at hf
            have hcount := hset f
            split at hf
            · rename_i hmem
              have hpos := List.count_pos_iff.mpr hmem
              obtain ⟨old, hold, rfl⟩ := Option.map_eq_some_iff.mp hf
              rcases h.lease f old hold with ⟨rfl, howned⟩ | ⟨-, howned⟩
              · exact .inr ⟨rfl, by omega⟩
              · omega
            · rename_i hmem
              rw [List.count_eq_zero_of_not_mem hmem] at hcount
              have hsame : owned (w.images.set i (image.close env w.frames).2) f = owned w.images f := by omega
              rw [hsame]
              exact h.lease f frame hf
          · have hcount := hset f
            have hlength : (image.close env w.frames).1.frames.length = w.frames.length := GpuImage.close_length
            have hfresh := h.fresh f (hlength ▸ hf)
            dsimp only
            omega
          · rcases List.mem_or_eq_of_mem_set hmem with hmem | rfl
            · exact h.closed image' hmem
            · exact fun _ => howners

end Sound

/-! ## Conversions and closes -/

/-- A retained frame `f` has gone to an open image that is returned, or is released behind an exception. -/
structure Handled (f : Nat) (result : Except ProcessorError Nat × Processing) : Prop where
  sound : Sound result.2
  ok : ∀ i, result.1 = .ok i → result.2.frames[f]? = some ⟨false, 0⟩ ∧
    ∃ image, result.2.images[i]? = some image ∧ image.closed = false ∧ .frame f ∈ image.owners
  error : ∀ e, result.1 = .error e → result.2.frames[f]? = some ⟨true, 1⟩

/-- The handler of `convert` closes the frame itself. -/
theorem Handled.closeFrame (h : Sound (w.closeFrame f)) (hf : w.frames[f]? = some ⟨false, 0⟩) (e : ProcessorError) :
    Handled f (.error e, w.closeFrame f) := by
  refine ⟨h, nofun, fun _ _ => ?_⟩
  rw [closeFrame_frames, if_pos rfl, hf]
  rfl

theorem takeOutput_handled (h : Sound (w.closeFrame f)) (hf : w.frames[f]? = some ⟨false, 0⟩)
    (himage : w.images[i]? = some image) (source : GpuSource) (r : GpuConversionRequest) (adapter : String) :
    Handled f (w.takeOutput i image f source r adapter env) := by
  unfold takeOutput attachOwner
  by_cases hclosed : image.closed = true
  · rw [if_pos hclosed]
    dsimp only
    rw [closeFrame_closeFrame]
    exact .closeFrame h hf _
  · rw [if_neg hclosed]
    rw [Bool.not_eq_true] at hclosed
    have hattached := h.attach hf himage hclosed
    have hi : i < w.images.length := (List.getElem?_eq_some_iff.mp himage).1
    have hget : (w.images.set i (attached image f))[i]? = some (attached image f) := List.getElem?_set_self hi
    have hmem : .frame f ∈ (attached image f).owners := List.mem_append_right _ List.mem_cons_self
    dsimp only
    split
    · refine ⟨hattached, fun j hj => ?_, nofun⟩
      cases hj
      exact ⟨hf, _, hget, hclosed, hmem⟩
    · -- the image closes the frame with its other owners
      refine ⟨hattached.closeImage, nofun, fun _ _ => ?_⟩
      simp only [Processing.closeImage, hget]
      rw [GpuImage.close_frames (show (attached image f).closed = false from hclosed), if_pos hmem, hf]
      rfl

/-- A conversion gets as far as the `retain` of its source. -/
def Retains (processor : String) (adapters : List GpuAdapter) (source : GpuSource) (r : GpuConversionRequest) : Prop :=
  source.retains = true ∧ ∃ adapter, chooseAdapter processor adapters source r = .ok adapter

theorem convert_handled (h : Sound w) {processor : String} {adapters : List GpuAdapter} {source : GpuSource}
    {r : GpuConversionRequest} (hretains : Retains processor adapters source r) :
    Handled w.frames.length (w.convert processor adapters source r env) := by
  obtain ⟨hsource, adapter, hadapter⟩ := hretains
  have hretained := h.retain
  have hframe := w.retainSource_frames
  simp only [convert, hadapter, hsource, Bool.not_true, Bool.false_eq_true, if_false]
  cases adapter.result with
  | raises => exact .closeFrame hretained hframe _
  | other => exact .closeFrame hretained hframe _
  | made new =>
      have howners : ∀ f, .frame f ∉ new.image.owners := by
        intro f
        unfold NewImage.image
        split <;> simp
      have hclosed : new.image.closed = true → new.image.owners = [] := by
        unfold NewImage.image
        split
        · exact fun _ => rfl
        · nofun
      have hget : (w.retainSource.images ++ [new.image])[w.retainSource.images.length]? = some new.image := by simp
      exact takeOutput_handled (w := { w.retainSource with images := w.retainSource.images ++ [new.image] })
        (hretained.append howners hclosed) hframe hget source r adapter.name
  | known i =>
      dsimp only
      split
      · exact .closeFrame hretained hframe _
      · rename_i himage
        exact takeOutput_handled hretained hframe himage source r adapter.name

theorem convert_unretained {processor : String} {adapters : List GpuAdapter} {source : GpuSource}
    {r : GpuConversionRequest} (hretains : ¬ Retains processor adapters source r) :
    ∃ e, w.convert processor adapters source r env = (.error e, w) := by
  unfold convert
  split
  · exact ⟨_, rfl⟩
  · rename_i adapter hadapter
    cases hsource : source.retains with
    | true => exact absurd ⟨hsource, adapter, hadapter⟩ hretains
    | false => exact ⟨_, rfl⟩

theorem Sound.run (h : Sound w) (op : Op) : Sound (w.run op) := by
  cases op with
  | close i env => exact h.closeImage
  | convert processor adapters source r env =>
      by_cases hretains : Retains processor adapters source r
      · exact (convert_handled h hretains).sound
      · obtain ⟨e, he⟩ : ∃ e, w.convert processor adapters source r env = (.error e, w) := convert_unretained hretains
        rw [Processing.run, he]
        exact h

/-! ## Runs -/

/-- What is expected of a conversion: it transfers the lease of its source to one image, or releases it, or has none. -/
inductive Converted (w : Processing) : Except ProcessorError Nat × Processing → Prop
  | transferred {w' : Processing} {i : Nat} {image : GpuImage} : w'.frames[w.frames.length]? = some ⟨false, 0⟩ →
      w'.images[i]? = some image → image.closed = false → image.owners.count (.frame w.frames.length) = 1 →
      (∀ j image', w'.images[j]? = some image' → j ≠ i → .frame w.frames.length ∉ image'.owners) → Converted w (.ok i, w')
  | released {w' : Processing} {e : ProcessorError} : w'.frames[w.frames.length]? = some ⟨true, 1⟩ →
      (∀ image ∈ w'.images, .frame w.frames.length ∉ image.owners) → Converted w (.error e, w')

/-- What is expected of a close of an open image: one call of its release callback, one close of each owner from the last to
the first whatever raises, and a release of each lease. A closed image makes no calls and is not changed again. -/
structure ClosedOnce (w : Processing) (i : Nat) (image : GpuImage) (env : CloseEnv) : Prop where
  calls : image.closed = false → (w.closeImage i env).1 =
    image.release.toList.map .release ++ (image.owners.reverse.filter (·.closable env)).map .close
  leases : image.closed = false → ∀ f, .frame f ∈ image.owners → w.frames[f]? = some ⟨false, 0⟩ ∧
    (w.closeImage i env).2.2.frames[f]? = some ⟨true, 1⟩
  closed : ∃ image', (w.closeImage i env).2.2.images[i]? = some image' ∧ image'.closed = true
  again : image.closed = true → w.closeImage i env = ([], none, w)
  stays : image.closed = true → ∀ op, (w.run op).images[i]? = some image

/-- Whatever happens, a closed image stays as it is. -/
theorem closed_stays (h : w.images[i]? = some image) (hclosed : image.closed = true) (op : Op) :
    (w.run op).images[i]? = some image := by
  have hlt : i < w.images.length := (List.getElem?_eq_some_iff.mp h).1
  have hclose : ∀ (w : Processing) j env, w.images[i]? = some image → (w.closeImage j env).2.2.images[i]? = some image := by
    intro w j env h
    rcases eq_or_ne j i with rfl | hne
    · rw [closeImage_of_closed h hclosed]
      exact h
    · unfold Processing.closeImage
      split
      · exact h
      · exact (List.getElem?_set_ne hne).trans h
  have htake : ∀ (w : Processing) j other f source r adapter env, w.images[i]? = some image → w.images[j]? = some other →
      (w.takeOutput j other f source r adapter env).2.images[i]? = some image := by
    intro w j other f source r adapter env h hother
    unfold takeOutput attachOwner
    by_cases hopen : other.closed = true
    · rw [if_pos hopen]
      exact h
    · rw [if_neg hopen]
      have hne : j ≠ i := by
        rintro rfl
        rw [h] at hother
        cases hother
        exact hopen hclosed
      have hset : (w.images.set j (attached other f))[i]? = some image := (List.getElem?_set_ne hne).trans h
      dsimp only
      split
      · exact hset
      · exact hclose { w with images := w.images.set j (attached other f) } j env hset
  cases op with
  | close j env => exact hclose w j env h
  | convert processor adapters source r env =>
      by_cases hretains : Retains processor adapters source r
      · obtain ⟨hsource, adapter, hadapter⟩ := hretains
        simp only [Processing.run, convert, hadapter, hsource, Bool.not_true, Bool.false_eq_true, if_false]
        cases adapter.result with
        | raises => exact h
        | other => exact h
        | made new =>
            refine htake { w.retainSource with images := w.retainSource.images ++ [new.image] } _ _ _ _ _ _ _ ?_ ?_
            · exact (List.getElem?_append_left hlt).trans h
            · simp
        | known j =>
            dsimp only
            split
            · exact h
            · rename_i hother
              exact htake _ _ _ _ _ _ _ _ h hother
      · obtain ⟨e, he⟩ : ∃ e, w.convert processor adapters source r env = (.error e, w) := convert_unretained hretains
        rw [Processing.run, he]
        exact h

theorem Handled.converted {result : Except ProcessorError Nat × Processing} (h : Handled w.frames.length result) :
    Converted w result := by
  obtain ⟨outcome, w'⟩ := result
  cases outcome with
  | ok i =>
      obtain ⟨hframe, image, himage, hopen, hmem⟩ := h.ok i rfl
      have howned : owned w'.images w.frames.length = 1 := by
        rcases h.sound.lease _ _ hframe with ⟨-, howned⟩ | ⟨hne, -⟩
        · exact howned
        · cases hne
      obtain ⟨hcount, hothers⟩ := owner_unique howned himage hmem
      exact .transferred hframe himage hopen hcount hothers
  | error e =>
      have hframe := h.error e rfl
      have howned : owned w'.images w.frames.length = 0 := by
        rcases h.sound.lease _ _ hframe with ⟨hne, -⟩ | ⟨-, howned⟩
        · cases hne
        · exact howned
      exact .released hframe (owned_eq_zero.mp howned)

theorem Sound.closedOnce (h : Sound w) (himage : w.images[i]? = some image) (env : CloseEnv) : ClosedOnce w i image env := by
  have hi : i < w.images.length := (List.getElem?_eq_some_iff.mp himage).1
  have hresult : w.closeImage i env = ((image.close env w.frames).1.calls, (image.close env w.frames).1.failure,
      ⟨(image.close env w.frames).1.frames, w.images.set i (image.close env w.frames).2⟩) := by
    simp only [Processing.closeImage, himage]
  have hset : ∀ image', (w.images.set i image')[i]? = some image' := fun image' => List.getElem?_set_self hi
  refine ⟨fun hopen => ?_, fun hopen f hmem => ?_, ?_, fun hclosed => ?_, fun hclosed op => closed_stays himage hclosed op⟩
  · rw [hresult]
    exact GpuImage.close_calls hopen
  · have hframe : w.frames[f]? = some ⟨false, 0⟩ := by
      have howned : owned w.images f ≠ 0 := fun hzero =>
        owned_eq_zero.mp hzero image (List.mem_of_getElem? himage) hmem
      have hlt : f < w.frames.length := Nat.lt_of_not_le fun hle => howned (h.fresh f hle)
      rcases h.lease f _ (List.getElem?_eq_getElem hlt) with ⟨hframe, -⟩ | ⟨-, hzero⟩
      · rw [List.getElem?_eq_getElem hlt, hframe]
      · exact absurd hzero howned
    refine ⟨hframe, ?_⟩
    rw [hresult]
    dsimp only
    rw [GpuImage.close_frames hopen, if_pos hmem, hframe]
    rfl
  · refine ⟨(image.close env w.frames).2, ?_, GpuImage.close_closed⟩
    rw [hresult]
    exact hset _
  · exact closeImage_of_closed himage hclosed

/-- In every run of conversions and closes, with any sources and adapters, a conversion that retains its source transfers the
lease to one image or releases it once, and a close of an image makes its calls once. -/
theorem source_lease_once {ops : List Op} (h : Run (fun w op w' => w' = w.run op) ⟨[], []⟩ ops w) :
    (∀ processor adapters source r env, Retains processor adapters source r →
      Converted w (w.convert processor adapters source r env)) ∧
    (∀ processor adapters source r env, ¬ Retains processor adapters source r →
      ∃ e, w.convert processor adapters source r env = (.error e, w)) ∧
    ∀ i image, w.images[i]? = some image → ∀ env, ClosedOnce w i image env := by
  have hsound : Sound w := by
    refine Run.invariant (I := Sound) h .new ?_
    rintro s op s' hs rfl
    exact hs.run op
  exact ⟨fun _ _ _ _ _ hretains => (convert_handled hsound hretains).converted,
    fun _ _ _ _ _ hretains => convert_unretained hretains, fun _ _ himage env => hsound.closedOnce himage env⟩

/-- A conversion of a small frame, with an adapter whose image has a release callback and two owners. -/
def smallConversion : Op :=
  .convert "auto"
    [⟨"fake", ["intel"], some true, .made ⟨⟨"intel", 3, 64, 48, "rgb", "hwc", "uint8", [48, 64, 3], "bt601", "limited",
      1234, "fake", "stream_event", "gpu_copy"⟩, false, some 7, [1, 2], false, false⟩⟩]
    ⟨some "intel", true, some ⟨3, 64, 48, some 1234⟩, some "intel"⟩ ⟨"rgb", "hwc", "uint8", "auto", "auto"⟩
    ⟨false, fun _ => .closes⟩

/-- The retained frame is the last owner of its image. Every owner is closed, although all objects raise. -/
theorem source_lease_once_small :
    (∃ image, (run ⟨[], []⟩ smallConversion).images[0]? = some image ∧
      ClosedOnce (run ⟨[], []⟩ smallConversion) 0 image ⟨true, fun _ => .raises⟩) ∧
    ((run ⟨[], []⟩ smallConversion).closeImage 0 ⟨true, fun _ => .raises⟩).1 =
      [.release 7, .close (.frame 0), .close (.object 2), .close (.object 1)] := by
  obtain ⟨image, himage⟩ : ∃ image, (run ⟨[], []⟩ smallConversion).images[0]? = some image :=
    Option.isSome_iff_exists.mp (by decide +kernel)
  exact ⟨⟨image, himage, (source_lease_once (Run.single (l := smallConversion) rfl)).2.2 0 image himage _⟩,
    by decide +kernel⟩

end Processing

end MkvCodec.Python
