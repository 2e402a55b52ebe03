import RemoteBoot.Proofs.Multiboot.Arming
import RemoteBoot.Proofs.Remote.Overflow

/-!
# Sums of a loader

A loader forms sums of 64 bits: ends of payloads, the next page, addresses of descriptors and command
lines.  Each is formed behind a check of its parts against 32 bits, so it fits as long as no payload
and no command line has 2^63 bytes, which no vector holds.  For the same reason no transfer of a
loader reaches over the last address.
-/

set_option autoImplicit false

namespace RemoteBoot.Multiboot.Loader

variable {σ : Type} {remote : Remote σ} {allowed : Crash → Prop}

section Trips

variable (smooth : remote.CrashesIn allowed)

include smooth

theorem begin_trips (controlBlock cursor : Nat) :
    Trips allowed (Loader.begin remote controlBlock cursor) := by
  unfold Loader.begin
  split
  · exact Trips.fail _
  · apply (smooth.fetch_control_block controlBlock).bind
    intro block
    split
    · exact Trips.fail _
    · exact Trips.pure _

/-- The start has passed its check when it is added to the length, and the end when the next page is
formed from it. -/
theorem push_trips {payload : Bytes}
    (own : 0x8000000000000000 ≤ payload.length → allowed .sumOverflow) (loader : Loader)
    (commandLine : Text) : Trips allowed (loader.push remote payload commandLine) := by
  apply (Trips.of_except _).bind
  intro opened
  apply (Trips.of_except _).bind_of_yields
    (Yields.of_except fun word narrowed => (narrow_ok narrowed).2)
  intro word start
  have sum : Trips allowed
      (Engine.ofChecked (Checked.sum loader.cursor payload.length) : Engine σ Nat) := by
    apply Trips.of_checked
    intro crash failed
    obtain ⟨same, large⟩ := Checked.sum_error failed
    cases same
    exact own (by omega)
  apply sum.bind
  intro stop
  apply (Trips.of_except _).bind_of_yields
    (Yields.of_except fun word narrowed => (narrow_ok narrowed).2)
  intro word fits
  apply (smooth.store _ _).bind
  intro stored
  apply (Trips.note _ _ _).bind
  intro noted
  rw [align_up_of_lt fits, Engine.of_checked_ok, pure_bind]
  exact Trips.pure _

theorem announce_trips {loader : Loader}
    (own : ∀ crash, loader.descriptorBlock = .error (.crash crash) → allowed crash) :
    Trips allowed (loader.announce remote) := by
  unfold announce
  cases loader.phase with
  | armed => exact Trips.fail _
  | idle => exact Trips.fail _
  | pushing =>
      have address : Trips allowed
          (Engine.ofChecked loader.descriptorAddress : Engine σ Nat) := by
        apply Trips.of_checked
        intro crash failed
        apply own
        rw [descriptorBlock, failed]
        rfl
      apply address.bind
      intro base
      apply (Trips.of_checked own).bind
      intro block
      apply (Trips.note _ _ _).bind
      intro noted
      apply (smooth.store _ _).bind
      intro stored
      exact smooth.fetch_control_block _

/-- All words lie at multiples of four behind the head of the control block. -/
theorem conclude_trips {loader : Loader} (aligned : loader.controlBlock % 4 = 0)
    (control : ControlBlock) : Trips allowed (loader.conclude remote control) := by
  have word : ∀ {offset : Nat}, offset % 4 = 0 → ∀ value : UInt32,
      Trips allowed (remote.storeWord (loader.controlBlock + offset) value) :=
    fun whole value => smooth.store_word (fun unaligned => absurd (by omega) unaligned) value
  apply (word (by decide) _).bind
  intro flagged
  apply (Trips.of_except _).bind
  intro address
  apply (word (by decide) _).bind
  intro listed
  apply (Trips.note _ _ _).bind
  intro noted
  apply (word (by decide) _).bind
  intro counted
  split
  · apply (Trips.note _ _ _).bind
    intro warned
    exact Trips.pure _
  · exact (Trips.pure _).bind fun _ => Trips.pure _

end Trips

theorem set_address_trips (loader : Loader) (address : Nat) :
    Trips allowed (loader.setAddress address : Engine σ Loader) := by
  apply (Trips.of_except _).bind
  intro opened
  apply (Trips.note _ _ _).bind
  intro noted
  exact Trips.pure _

/-- A command line that a vector holds. -/
def Holdable (commandLine : Text) : Prop :=
  (Utf8.encode commandLine).length < 0x8000000000000000

instance (commandLine : Text) : Decidable (Holdable commandLine) :=
  inferInstanceAs (Decidable (_ < _))

/-- Each command line is added to an address that has passed its check. -/
theorem descriptors_form {line : Nat} {modules : List Module}
    (lines : ∀ module ∈ modules, Holdable module.commandLine) (crash : Crash) :
    Module.descriptors line modules ≠ .error (.crash crash) := by
  induction modules generalizing line with
  | nil =>
      intro failed
      rcases error_of_bind_error failed with narrowed | ⟨word, _, listed⟩
      · obtain ⟨fault, same, _⟩ := error_of_lift narrowed
        cases same
      · cases listed
  | cons module modules ih =>
      intro failed
      rcases error_of_bind_error failed with described | ⟨first, made, behind⟩
      · obtain ⟨fault, same, _⟩ := error_of_lift described
        cases same
      have start := (Module.descriptor_ok (ok_of_lift made)).2.2.2
      have own : (Utf8.encode module.commandLine).length < 0x8000000000000000 :=
        lines module List.mem_cons_self
      have length : module.lineBytes.length = (Utf8.encode module.commandLine).length + 1 :=
        List.length_append
      rw [Checked.sum_of_lt (by omega)] at behind
      rcases error_of_bind_error behind with formed | ⟨next, _, further⟩
      · cases formed
      rcases error_of_bind_error further with others | ⟨others, _, listed⟩
      · exact ih (fun other listed => lines other (List.mem_cons_of_mem module listed)) others
      · cases listed

/-- A loader for a control block with an address of 32 bits, with so many modules at most, and with
command lines of one kind only. -/
structure Small (line : Text → Prop) (count : Nat) (loader : Loader) : Prop where
  controlBlock : loader.controlBlock < 0x100000000
  modules : loader.modules.length ≤ count
  lines : ∀ module ∈ loader.modules, line module.commandLine

theorem Small.block_forms {count : Nat} {loader : Loader} (small : Small Holdable count loader)
    (held : Descriptor.size * count < 0x8000000000000000) (crash : Crash) :
    loader.descriptorBlock ≠ .error (.crash crash) := by
  have published := small.controlBlock
  have array : Descriptor.size * loader.modules.length < 0x8000000000000000 :=
    Nat.lt_of_le_of_lt (Nat.mul_le_mul_left _ small.modules) held
  intro failed
  rw [descriptorBlock, descriptorAddress, Checked.sum_of_lt (by omega)] at failed
  rcases error_of_bind_error failed with formed | ⟨base, formed, made⟩
  · cases formed
  cases formed
  rw [Module.block, Checked.sum_of_lt (by omega)] at made
  rcases error_of_bind_error made with formed | ⟨line, _, listed⟩
  · cases formed
  rcases error_of_bind_error listed with descriptors | ⟨all, _, put⟩
  · exact descriptors_form small.lines crash descriptors
  · cases put

section Below

variable (remote) (beyond : Remote σ)

theorem begin_below {controlBlock : Nat} (published : controlBlock < 0x100000000) (cursor : Nat) :
    Loader.begin (remote.below beyond) controlBlock cursor =
      Loader.begin remote controlBlock cursor := by
  have fits : controlBlock + ControlBlock.size < 0x10000000000000000 := by
    rw [ControlBlock.size]
    omega
  rw [Loader.begin, remote.fetch_control_block_below beyond fits, ← Loader.begin]

theorem push_below (loader : Loader) (payload : Bytes) (commandLine : Text) :
    loader.push (remote.below beyond) payload commandLine =
      loader.push remote payload commandLine := by
  unfold push
  apply congrArg
  funext opened
  apply congrArg
  funext start
  apply Yields.bind_congr (Yields.of_checked fun stop formed => (Checked.sum_ok formed).1)
  intro stop same
  apply Yields.bind_congr (Yields.of_except fun word narrowed => (narrow_ok narrowed).2)
  intro word fits
  simp only [remote.store_below beyond (by omega : loader.cursor + payload.length < _)]

theorem arm_below {loader : Loader} (published : loader.controlBlock < 0x100000000) :
    loader.arm (remote.below beyond) = loader.arm remote := by
  have control : loader.controlBlock + ControlBlock.size < 0x10000000000000000 := by
    rw [ControlBlock.size]
    omega
  have word : ∀ {offset : Nat}, offset ≤ 24 → ∀ value : UInt32,
      (remote.below beyond).storeWord (loader.controlBlock + offset) value =
        remote.storeWord (loader.controlBlock + offset) value :=
    fun near value => remote.store_word_below beyond (by omega) value
  unfold arm
  cases loader.phase with
  | armed => rfl
  | idle => rfl
  | pushing =>
      apply Yields.bind_congr (Yields.of_checked fun base formed => descriptor_address_ok formed)
      rintro base rfl
      apply Yields.bind_congr (Yields.of_checked fun block made =>
        Module.block_fits (descriptor_block_ok made).2)
      intro block fits
      simp only [remote.store_below beyond (Nat.lt_trans fits (by decide)),
        remote.fetch_control_block_below beyond control,
        word (by decide : ControlBlock.flagsOffset ≤ 24),
        word (by decide : ControlBlock.modsAddressOffset ≤ 24),
        word (by decide : ControlBlock.modsCountOffset ≤ 24)]

end Below

end RemoteBoot.Multiboot.Loader
