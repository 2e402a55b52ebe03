import RemoteBoot.Image.Reader
import RemoteBoot.Proofs.Remote.Actions

/-!
# The windows of an image

The segments of an image that was read lie in its file and have room for what the file provides.
Segments whose virtual windows are apart keep them apart when addresses are translated: an address
inside the window of a segment is mapped by this segment, as long as 64 bits hold the sum.
-/

set_option autoImplicit false

namespace RemoteBoot.Image

/-- Every segment has its bytes in the file and room for them in memory. -/
structure Sound (image : Image) : Prop where
  inFile : ∀ segment ∈ image.segments,
    segment.fileOffset + segment.fileSize ≤ image.file.length
  room : ∀ segment ∈ image.segments, segment.fileSize ≤ segment.memorySize

theorem result_decode (name : String) (file : Bytes) : (decode name file).result = read name file := by
  simp only [decode, Noted.result_bind, Noted.ofExcept, Noted.result_note, Noted.result_pure,
    Except.bind]
  cases read name file <;> rfl

/-- A place in the physical window of a segment. -/
def Segment.Holds (segment : Segment) (place : Nat) : Prop :=
  segment.physicalAddress ≤ place ∧ place < segment.physicalAddress + segment.memorySize

theorem contains_iff (region : Region) (address : Nat) :
    region.contains address = true ↔
      region.virtualAddress ≤ address ∧ address < region.virtualAddress + region.length := by
  rw [Region.contains, Bool.and_eq_true, decide_eq_true_eq, decide_eq_true_eq]
  omega

/-- The window that decides about an address: the first one that contains it. -/
def windowOf? (image : Image) (address : Nat) : Option Segment :=
  image.segments.find? fun segment => segment.region.contains address

theorem find_region (image : Image) (address : Nat) :
    image.regions.find? (fun region => region.contains address) =
      (image.windowOf? address).map Segment.region := by
  rw [regions, List.find?_map]
  rfl

theorem physical_address_of_window {image : Image} {address : Nat} {window : Segment}
    (decides : image.windowOf? address = some window) :
    image.physicalAddress address =
      Checked.sum (address - window.virtualAddress) window.physicalAddress := by
  rw [physicalAddress, find_region, decides]
  rfl

theorem physical_address_unmapped {image : Image} {address : Nat}
    (nowhere : image.windowOf? address = none) :
    image.physicalAddress address = .error (.fault (.unmappedAddress address)) := by
  rw [physicalAddress, find_region, nowhere]
  rfl

/-- An address is mapped by the first window that contains it, if 64 bits hold where that leads. -/
theorem physical_address_iff (image : Image) (address place : Nat) :
    image.physicalAddress address = .ok place ↔ ∃ window, image.windowOf? address = some window ∧
      place = address - window.virtualAddress + window.physicalAddress ∧
        place < 0x10000000000000000 := by
  constructor
  · intro mapped
    cases decides : image.windowOf? address with
    | none =>
        rw [physical_address_unmapped decides] at mapped
        cases mapped
    | some window =>
        rw [physical_address_of_window decides] at mapped
        obtain ⟨rfl, fits⟩ := Checked.sum_ok mapped
        exact ⟨window, rfl, rfl, fits⟩
  · rintro ⟨window, decides, rfl, fits⟩
    rw [physical_address_of_window decides, Checked.sum_of_lt fits]

theorem window_contains {image : Image} {address : Nat} {window : Segment}
    (decides : image.windowOf? address = some window) :
    window.virtualAddress ≤ address ∧ address < window.virtualAddress + window.memorySize := by
  unfold windowOf? at decides
  have inside := List.find?_some decides
  exact (contains_iff window.region address).mp inside

end RemoteBoot.Image
