import Mathlib.Algebra.Ring.Int.Defs
import Mathlib.Algebra.Ring.Nat
import Mathlib.Data.List.Basic

/-!
# GPU images and the leases of their sources

`GpuImage` of `api/processor.py`: an output with a release callback and with owners that it closes, of which some are frames
that a processor has retained. What the calls of other objects do is decided outside.
-/

namespace MkvCodec.Python

/-! ## Model -/

/-- `GpuFrame`, with how often `mkvc_gpu_frame_release` was called for the lease of its handle. -/
structure GpuFrame where
  closed : Bool
  releases : Nat
  deriving DecidableEq

def GpuFrame.close (f : GpuFrame) : GpuFrame := if f.closed then f else ⟨true, f.releases + 1⟩

/-- An owner of an image: a frame that `GpuProcessor.convert` has retained, or any other object. -/
inductive Owner
  | frame (f : Nat)
  | object (o : Nat)
  deriving DecidableEq

/-- What an object has for a `close`. -/
inductive ObjectClose
  | absent
  | closes
  | raises
  deriving DecidableEq

/-- A call that an image makes when it is closed. -/
inductive ImageCall
  | release (callback : Nat)
  | close (owner : Owner)
  deriving DecidableEq

/-- What the callback and the objects do. -/
structure CloseEnv where
  releaseRaises : Bool
  object : Nat → ObjectClose

/-- The frames in the middle of a `close`, the calls so far and the first of them that has raised. -/
structure Closing where
  frames : List GpuFrame
  calls : List ImageCall
  failure : Option ImageCall

def Owner.close (env : CloseEnv) (c : Closing) : Owner → Closing
  | .frame f => { c with frames := c.frames.modify f GpuFrame.close, calls := c.calls ++ [.close (.frame f)] }
  | .object o =>
      match env.object o with
      | .absent => c
      | .closes => { c with calls := c.calls ++ [.close (.object o)] }
      | .raises =>
          { c with calls := c.calls ++ [.close (.object o)], failure := c.failure.or (some (.close (.object o))) }

/-- `GpuImageInfo`. -/
structure GpuImageInfo where
  backend : String
  deviceId : Int
  width : Int
  height : Int
  format : String
  layout : String
  dtype : String
  shape : List Int
  colorSpace : String
  colorRange : String
  ptsNs : Int
  adapter : String
  completion : String
  copyPath : String
  deriving DecidableEq

/-- `GpuImage`. Of the provider and of the callback of `wait` it says whether they are set. -/
structure GpuImage where
  info : GpuImageInfo
  provider : Bool
  wait : Bool
  release : Option Nat
  owners : List Owner
  waitBeforeDlpack : Bool
  closed : Bool
  deriving DecidableEq

/-- The frames and calls behind the release callback of an image. -/
def GpuImage.callRelease (image : GpuImage) (env : CloseEnv) (frames : List GpuFrame) : Closing :=
  match image.release with
  | none => ⟨frames, [], none⟩
  | some callback => ⟨frames, [.release callback], if env.releaseRaises then some (.release callback) else none⟩

/-- `GpuImage.close`. The failure is raised when all calls are made. -/
def GpuImage.close (image : GpuImage) (env : CloseEnv) (frames : List GpuFrame) : Closing × GpuImage :=
  if image.closed then (⟨frames, [], none⟩, image)
  else
    (image.owners.reverse.foldl (Owner.close env) (image.callRelease env frames),
      { image with
        provider := false
        wait := false
        release := none
        owners := []
        waitBeforeDlpack := false
        closed := true })

/-! ## Closing -/

@[simp] theorem GpuFrame.close_close (f : GpuFrame) : f.close.close = f.close := by
  cases hclosed : f.closed <;> simp [close, hclosed]

def Owner.closable (env : CloseEnv) : Owner → Bool
  | .frame _ => true
  | .object o => decide (env.object o ≠ .absent)

/-- Every owner with a `close` is closed once, whatever the others do. -/
theorem closeOwners_calls (env : CloseEnv) (owners : List Owner) (c : Closing) :
    (owners.foldl (Owner.close env) c).calls = c.calls ++ (owners.filter (·.closable env)).map .close := by
  induction owners generalizing c with
  | nil => exact (List.append_nil _).symm
  | cons owner owners ih =>
      rw [List.foldl_cons, ih]
      cases owner with
      | frame f => simp [Owner.close, Owner.closable]
      | object o => cases hclose : env.object o <;> simp [Owner.close, Owner.closable, hclose]

theorem closeOwners_frames (env : CloseEnv) (owners : List Owner) (c : Closing) (f : Nat) :
    (owners.foldl (Owner.close env) c).frames[f]? =
      if .frame f ∈ owners then c.frames[f]?.map GpuFrame.close else c.frames[f]? := by
  induction owners generalizing c with
  | nil => rfl
  | cons owner owners ih =>
      rw [List.foldl_cons, ih]
      cases owner with
      | object o => cases hclose : env.object o <;> simp [Owner.close, hclose]
      | frame g =>
          simp only [Owner.close, List.getElem?_modify, List.mem_cons, Owner.frame.injEq]
          rcases eq_or_ne g f with rfl | hne
          · cases c.frames[g]? <;> simp
          · cases c.frames[f]? <;> simp [hne, hne.symm]

theorem closeOwners_length (env : CloseEnv) (owners : List Owner) (c : Closing) :
    (owners.foldl (Owner.close env) c).frames.length = c.frames.length := by
  induction owners generalizing c with
  | nil => rfl
  | cons owner owners ih =>
      rw [List.foldl_cons, ih]
      cases owner with
      | frame f => exact List.length_modify ..
      | object o => cases hclose : env.object o <;> simp [Owner.close, hclose]

namespace GpuImage

variable {image : GpuImage} {env : CloseEnv} {frames : List GpuFrame}

theorem callRelease_frames : (image.callRelease env frames).frames = frames := by
  unfold callRelease
  split <;> rfl

/-- A close of an open image calls its release callback, and closes its owners from the last to the first. -/
theorem close_calls (h : image.closed = false) : (image.close env frames).1.calls =
    image.release.toList.map .release ++ (image.owners.reverse.filter (·.closable env)).map .close := by
  have hrelease : (image.callRelease env frames).calls = image.release.toList.map .release := by
    unfold callRelease
    split
    · rename_i hnone
      rw [hnone]
      rfl
    · rename_i callback hsome
      rw [hsome]
      rfl
  rw [close, h, ← hrelease]
  exact closeOwners_calls ..

theorem close_of_closed (h : image.closed = true) : image.close env frames = (⟨frames, [], none⟩, image) := by
  rw [close, if_pos h]

theorem close_closed : (image.close env frames).2.closed = true := by
  unfold close
  split
  · assumption
  · rfl

theorem close_frames (h : image.closed = false) (f : Nat) : (image.close env frames).1.frames[f]? =
    if .frame f ∈ image.owners then frames[f]?.map GpuFrame.close else frames[f]? := by
  rw [close, h, if_neg (by decide)]
  simp only [closeOwners_frames, List.mem_reverse, callRelease_frames]

theorem close_length : (image.close env frames).1.frames.length = frames.length := by
  unfold close
  split
  · rfl
  · rw [closeOwners_length, callRelease_frames]

end GpuImage

end MkvCodec.Python
