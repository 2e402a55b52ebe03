import RemoteBoot.Image.Reader
import RemoteBoot.Remote.Engine

/-!
# Loading an image

Every segment goes to its physical address: first the bytes of the file, then zeros up to its size
in memory.  Parts of no bytes are not written.
-/

set_option autoImplicit false

namespace RemoteBoot.Image

variable {σ : Type}

/-- Writes one segment. -/
def loadSegmentTo (remote : Remote σ) (image : Image) (segment : Segment) : Engine σ Unit := do
  if segment.memorySize = 0 then
    pure ()
  else
    let target ← Engine.ofChecked (image.physicalAddress segment.virtualAddress)
    Engine.note .debug .image (image.name ++ ": segment " ++ Numeral.hex segment.virtualAddress
      ++ " -> phys " ++ Numeral.hex target ++ " (" ++ Numeral.hex segment.fileSize ++ " file, "
      ++ Numeral.hex segment.memorySize ++ " mem)")
    if segment.fileSize ≠ 0 then
      remote.store target (image.segmentData segment)
    if segment.zeroFill ≠ 0 then
      let behind ← Engine.ofChecked (Checked.sum target segment.fileSize)
      let zeros ← Engine.ofChecked (Checked.zeros segment.zeroFill)
      remote.store behind zeros

/-- Writes every segment in file order and returns the entry point. -/
def load (remote : Remote σ) (image : Image) : Engine σ Nat := do
  image.segments.forM (loadSegmentTo remote image)
  pure image.entry

end RemoteBoot.Image
