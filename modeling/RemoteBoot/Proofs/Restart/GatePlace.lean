import RemoteBoot.Proofs.Image.Windows
import RemoteBoot.Proofs.Restart.Rebooting

/-!
# Where the gate lies

Only the first address of the gate table is translated; the slot is counted from there in physical
addresses.  This comes to the translation of the slot as far as the windows that decide about its
bytes shift addresses as the window of the table does.  Windows are not checked against each other,
so this is for the image to keep.
-/

set_option autoImplicit false

namespace RemoteBoot

/-- Two segments that shift addresses by the same amount. -/
def Image.Segment.Alike (first second : Image.Segment) : Prop :=
  first.physicalAddress + second.virtualAddress = second.physicalAddress + first.virtualAddress

instance (first second : Image.Segment) : Decidable (first.Alike second) :=
  inferInstanceAs (Decidable (_ = _))

namespace Restart.Controller

open Image

variable {σ : Type} {controller : Controller} {gate : Nat}

theorem window_of_gate (found : controller.gateAddress = .ok gate) :
    ∃ table window, controller.image.symbol controller.tableSymbol = .ok table ∧
      controller.image.windowOf? table = some window ∧
      gate = table - window.virtualAddress + window.physicalAddress + 16 := by
  unfold gateAddress at found
  obtain ⟨place, located, counted⟩ := ok_of_bind_ok found
  unfold symbolPhysical at located
  obtain ⟨table, named, translated⟩ := ok_of_bind_ok located
  obtain ⟨window, decides, rfl, _⟩ := (physical_address_iff _ _ _).mp translated
  exact ⟨table, window, ok_of_lift named, decides, (Checked.sum_ok counted).1⟩

theorem patch_of_address (remote : Remote σ) (found : controller.gateAddress = .ok gate) :
    (∃ fault, controller.patch remote = Engine.fail fault) ∨
      ∃ handler text, controller.patch remote = (do
        Engine.note .info .restart text
        remote.store gate (Gate.ofHandler handler).toBytes) := by
  rw [patch, found, Controller.gate]
  cases controller.image.symbol controller.resetSymbol with
  | error fault => exact Or.inl ⟨fault, rfl⟩
  | ok handler => exact Or.inr ⟨handler, _, rfl⟩

/-- Redirecting the gate attempts no write but that of its eight bytes. -/
theorem patch_writes_gate (remote : Remote σ) (found : controller.gateAddress = .ok gate)
    (node : σ) :
    ∀ attempt ∈ (controller.patch remote.attempted (node, [])).node.2,
      attempt.write.address = gate ∧ attempt.write.bytes.length = 8 := by
  intro attempt listed
  rcases patch_of_address remote.attempted found with ⟨fault, failed⟩ | ⟨handler, text, patched⟩
  · rw [failed] at listed
    cases listed
  · have attempts : Attempts (controller.patch remote.attempted)
        [⟨gate, (Gate.ofHandler handler).toBytes⟩] := by
      rw [patched]
      exact (Attempts.note _ _ _).bind (Attempts.store remote _ _)
    obtain ⟨others, kept, order⟩ := attempts.own node []
    rw [kept, List.nil_append] at listed
    have issued := order.front.subset (List.mem_map_of_mem listed)
    rw [List.mem_singleton.mp issued]
    exact ⟨rfl, rfl⟩

section Bytes

variable {image : Image} {table : Nat} {window other : Segment}
  (decides : image.windowOf? table = some window)

include decides

/-- Counting from the translated table and translating come to the same behind alike windows. -/
theorem translated_iff_alike (distance place : Nat)
    (counted : place = table - window.virtualAddress + window.physicalAddress + distance) :
    image.physicalAddress (table + distance) = .ok place ↔
      place < 0x10000000000000000 ∧
        ∃ other, image.windowOf? (table + distance) = some other ∧ other.Alike window := by
  have inside := window_contains decides
  rw [physical_address_iff]
  constructor
  · rintro ⟨other, also, translated, fits⟩
    have within := window_contains also
    refine ⟨fits, other, also, ?_⟩
    unfold Segment.Alike
    omega
  · rintro ⟨fits, other, also, alike⟩
    have within := window_contains also
    unfold Segment.Alike at alike
    exact ⟨other, also, by omega, fits⟩

theorem holds_of_alike (distance place : Nat)
    (counted : place = table - window.virtualAddress + window.physicalAddress + distance)
    (also : image.windowOf? (table + distance) = some other) (alike : other.Alike window) :
    other.Holds place := by
  have inside := window_contains decides
  have within := window_contains also
  unfold Segment.Alike at alike
  constructor <;> omega

end Bytes

/-- A byte of the gate lies where it is mapped exactly if it has an address of 64 bits and the window
that decides about it shifts as the window of the table does, and it then lies in that window.
Nothing but the gate is written. -/
theorem gate_lies_as_windows_shift (found : controller.gateAddress = .ok gate) :
    ∃ table window, controller.image.symbol controller.tableSymbol = .ok table ∧
      controller.image.windowOf? table = some window ∧
      gate = table - window.virtualAddress + window.physicalAddress + 16 ∧
      (∀ offset < 8, (controller.image.physicalAddress (table + 16 + offset) = .ok (gate + offset) ↔
        gate + offset < 0x10000000000000000 ∧
          ∃ other, controller.image.windowOf? (table + 16 + offset) = some other ∧
            other.Alike window)) ∧
      (∀ offset < 8, ∀ other, controller.image.windowOf? (table + 16 + offset) = some other →
        other.Alike window → other.Holds (gate + offset)) ∧
      ((∀ offset < 8, controller.image.windowOf? (table + 16 + offset) = some window) →
        ∀ offset < 8, gate + offset < 0x10000000000000000 →
          controller.image.physicalAddress (table + 16 + offset) = .ok (gate + offset) ∧
            window.Holds (gate + offset)) ∧
      ∀ {σ : Type} (remote : Remote σ) (node : σ),
        ∀ attempt ∈ (controller.patch remote.attempted (node, [])).node.2,
          attempt.write.address = gate ∧ attempt.write.bytes.length = 8 := by
  obtain ⟨table, window, named, decides, counted⟩ := window_of_gate found
  have place : ∀ offset, gate + offset =
      table - window.virtualAddress + window.physicalAddress + (16 + offset) := by
    intro offset
    omega
  refine ⟨table, window, named, decides, counted, ?_, ?_, ?_, ?_⟩
  · intro offset _
    rw [Nat.add_assoc]
    exact translated_iff_alike decides (16 + offset) _ (place offset)
  · intro offset _ other also alike
    rw [Nat.add_assoc] at also
    exact holds_of_alike decides (16 + offset) _ (place offset) also alike
  · intro whole offset within fits
    have also := whole offset within
    rw [Nat.add_assoc] at also ⊢
    have lies := translated_iff_alike decides (16 + offset) _ (place offset)
    exact ⟨lies.mpr ⟨fits, window, also, rfl⟩,
      holds_of_alike decides (16 + offset) _ (place offset) also rfl⟩
  · intro σ remote node
    exact patch_writes_gate remote found node

/-- Two windows of a page each, with a gate table near the end of the first one. -/
def tableAt (table second place : Nat) : Blueprint where
  segments := [⟨0xc0100000, 0x100000, [0x90], 0x1000⟩, ⟨second, place, [0xcc], 0x1000⟩]
  symbols := [(defaultTableSymbol, table), (defaultResetSymbol, 0xc0100040)]

/-- A gate that goes over from one window to an alike one lies where all its bytes are mapped. -/
theorem gate_over_alike_windows :
    ∃ image, (decode "image" (tableAt 0xc0100fec 0xc0101000 0x101000).build).result = .ok image ∧
      gateAddress ⟨image, defaultTableSymbol, defaultResetSymbol⟩ = .ok 0x100ffc ∧
      ∀ offset < 8,
        image.physicalAddress (0xc0100fec + 16 + offset) = .ok (0x100ffc + offset) := by
  have known : ((decode "image" (tableAt 0xc0100fec 0xc0101000 0x101000).build).result.toOption.map
      fun image => ((image.symbol defaultTableSymbol).toOption,
        (gateAddress ⟨image, defaultTableSymbol, defaultResetSymbol⟩).toOption,
        image.segments)) = some (some 0xc0100fec, some 0x100ffc,
          [⟨176, 0xc0100000, 0x100000, 1, 0x1000⟩, ⟨184, 0xc0101000, 0x101000, 1, 0x1000⟩]) := by
    decide +kernel
  obtain ⟨image, decoded, parts⟩ := Option.map_eq_some_iff.mp known
  simp only [Prod.mk.injEq] at parts
  obtain ⟨symbol, address, segments⟩ := parts
  have found := ok_of_to_option address
  refine ⟨image, ok_of_to_option decoded, found, ?_⟩
  obtain ⟨table, window, named, decides, _, lies, _⟩ := gate_lies_as_windows_shift found
  cases (ok_of_to_option symbol).symm.trans named
  have first : window = ⟨176, 0xc0100000, 0x100000, 1, 0x1000⟩ := by
    rw [windowOf?, segments] at decides
    exact (Option.some.inj decides).symm
  subst first
  have alike : ∀ offset < 8, ∃ other ∈ image.segments,
      (image.segments.find? fun segment =>
        segment.region.contains (0xc0100fec + 16 + offset)) = some other ∧
          other.Alike ⟨176, 0xc0100000, 0x100000, 1, 0x1000⟩ := by
    rw [segments]
    decide +kernel
  intro offset within
  obtain ⟨other, _, also, same⟩ := alike offset within
  exact (lies offset within).mpr ⟨by omega, other, also, same⟩

/-- A gate behind the window of its table is not mapped; it is written all the same. -/
theorem gate_not_always_mapped :
    ¬ ∀ (name : String) (file : Bytes) (image : Image) (tableSymbol resetSymbol : Text)
      (table gate : Nat), (decode name file).result = .ok image →
        image.symbol tableSymbol = .ok table →
        gateAddress ⟨image, tableSymbol, resetSymbol⟩ = .ok gate →
          ∀ offset < 8, image.physicalAddress (table + 16 + offset) = .ok (gate + offset) := by
  intro always
  have known : ((decode "image" (tableAt 0xc0100ff0 0xc0200000 0x101000).build).result.toOption.map
      fun image => ((image.symbol defaultTableSymbol).toOption,
        (gateAddress ⟨image, defaultTableSymbol, defaultResetSymbol⟩).toOption,
        (image.physicalAddress 0xc0101000).toOption)) =
          some (some 0xc0100ff0, some 0x101000, none) := by
    decide +kernel
  obtain ⟨image, decoded, parts⟩ := Option.map_eq_some_iff.mp known
  simp only [Prod.mk.injEq] at parts
  obtain ⟨symbol, found, unmapped⟩ := parts
  have mapped := always "image" _ image _ defaultResetSymbol _ _ (ok_of_to_option decoded)
    (ok_of_to_option symbol) (ok_of_to_option found) 0 (by decide)
  rw [mapped] at unmapped
  cases unmapped

end Restart.Controller
end RemoteBoot
