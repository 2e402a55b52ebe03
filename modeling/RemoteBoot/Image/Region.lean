import RemoteBoot.Checked

/-!
# Address windows

A region maps a range of virtual addresses to physical ones, keeping offsets.  A segment is a part
of an image file together with the region it fills; what the file does not provide is zero.
-/

set_option autoImplicit false

namespace RemoteBoot.Image

structure Region where
  virtualAddress : Nat
  physicalAddress : Nat
  length : Nat
  deriving DecidableEq, Repr

namespace Region

def contains (region : Region) (address : Nat) : Bool :=
  region.virtualAddress ≤ address && address - region.virtualAddress < region.length

/-- The physical address behind a virtual one inside the region. -/
def physical (region : Region) (address : Nat) : Except Stop Nat :=
  Checked.sum (address - region.virtualAddress) region.physicalAddress

end Region

structure Segment where
  fileOffset : Nat
  virtualAddress : Nat
  physicalAddress : Nat
  fileSize : Nat
  memorySize : Nat
  deriving DecidableEq, Repr

namespace Segment

def region (segment : Segment) : Region :=
  ⟨segment.virtualAddress, segment.physicalAddress, segment.memorySize⟩

/-- How many zero bytes follow the bytes of the file. -/
def zeroFill (segment : Segment) : Nat :=
  segment.memorySize - segment.fileSize

end Segment
end RemoteBoot.Image
