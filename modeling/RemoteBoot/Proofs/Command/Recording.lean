import RemoteBoot.Command.Tool
import RemoteBoot.Proofs.BusProgram.Issued
import RemoteBoot.Proofs.Command.Acceptance
import RemoteBoot.Proofs.Image.Loading
import RemoteBoot.Proofs.Image.Malformed
import RemoteBoot.Proofs.Restart.Rebooting
import RemoteBoot.Proofs.Text.Numerals

/-!
# Commands on a machine that keeps its calls

A command is carried out on any machine.  The machine may keep every call of the bus program, which
does not change what the command does.  What the parser has seen to keeps every command clear of the
check of a word boundary.
-/

set_option autoImplicit false

namespace RemoteBoot

open BusProgram

section Tracking

variable {σ ρ : Type} {related : σ → ρ → Prop} {remote : Remote σ} {other : Remote ρ}

theorem ReadsTrack.read_rom (reads : ReadsTrack related remote other) (count : Nat) :
    Tracks related (Rom.readRom remote count) (Rom.readRom other count) := by
  unfold Rom.readRom
  split
  · exact (reads _ _).bind fun _ => Tracks.pure _
  · exact Tracks.crash _

/-- A reboot only writes. -/
theorem WritesTrack.reboot (writes : WritesTrack related remote other)
    (controller : Restart.Controller) :
    Tracks related (controller.reboot remote) (controller.reboot other) := by
  have sent (signal : Restart.Signal) : Tracks related (signal.send remote) (signal.send other) :=
    (Tracks.note _ _ _).bind fun _ => writes.store_word _ _
  have patched : Tracks related (controller.patch remote) (controller.patch other) := by
    apply (Tracks.of_checked _).bind
    intro address
    apply (Tracks.of_except _).bind
    intro gate
    exact (Tracks.note _ _ _).bind fun _ => writes _ _
  exact patched.bind fun _ => (sent .init).bind fun _ => sent .nmi

theorem Tracks.for_all {α : Type} {action : α → Engine σ Unit} {further : α → Engine ρ Unit}
    (each : ∀ value, Tracks related (action value) (further value)) (values : List α) :
    Tracks related (values.forM action) (values.forM further) := by
  induction values with
  | nil => exact Tracks.pure ()
  | cons value values ih => exact (each value).bind fun _ => ih

end Tracking

/-- Not the check of a word boundary. -/
def Crash.OffBoundary (crash : Crash) : Prop :=
  ∀ address, crash ≠ .misaligned address

namespace Trips

variable {σ α : Type}

theorem for_all {allowed : Crash → Prop} {action : α → Engine σ Unit}
    (each : ∀ value, Trips allowed (action value)) (values : List α) :
    Trips allowed (values.forM action) := by
  induction values with
  | nil => exact Trips.pure ()
  | cons value values ih => exact (each value).bind fun _ => ih

theorem off_boundary_sum (left right : Nat) :
    Trips Crash.OffBoundary (Engine.ofChecked (Checked.sum left right) : Engine σ Nat) :=
  Trips.sum (fun address misaligned => by cases misaligned) left right

theorem physical_address (image : Image) (address : Nat) :
    Trips Crash.OffBoundary (Engine.ofChecked (image.physicalAddress address) : Engine σ Nat) := by
  cases decides : image.windowOf? address with
  | none =>
      rw [Image.physical_address_unmapped decides]
      exact Trips.fail _
  | some window =>
      rw [Image.physical_address_of_window decides]
      exact off_boundary_sum _ _

theorem gate_address (controller : Restart.Controller) :
    Trips Crash.OffBoundary (Engine.ofChecked controller.gateAddress : Engine σ Nat) := by
  cases named : controller.image.symbol controller.tableSymbol with
  | error fault =>
      rw [Restart.Controller.gate_address_of_unnamed named]
      exact Trips.fail _
  | ok address =>
      cases decides : controller.image.windowOf? address with
      | none =>
          rw [Restart.Controller.gate_address_of_unmapped named decides]
          exact Trips.fail _
      | some window =>
          rw [Restart.Controller.gate_address_of_window named decides]
          exact off_boundary_sum _ _

end Trips

namespace Remote.CrashesIn

variable {σ : Type} {remote : Remote σ} (smooth : remote.CrashesIn Crash.OffBoundary)

include smooth

theorem store_zeros (target : Nat) (segment : Image.Segment) :
    Trips Crash.OffBoundary (Image.storeZeros remote target segment) := by
  unfold Image.storeZeros
  split
  · apply (Trips.off_boundary_sum _ _).bind
    intro behind
    apply (Trips.of_checked _).bind
    · intro zeros
      exact smooth.store behind zeros
    · intro crash failed
      cases (Checked.zeros_error failed).1
      intro address misaligned
      cases misaligned
  · exact Trips.pure ()

theorem load (image : Image) : Trips Crash.OffBoundary (image.load remote) := by
  apply (Trips.for_all _ image.segments).bind
  · intro loaded
    exact Trips.pure image.entry
  · intro segment
    rw [Image.load_segment_eq]
    split
    · exact Trips.pure ()
    · apply (Trips.physical_address image _).bind
      intro target
      apply (Trips.note _ _ _).bind
      intro noted
      apply Trips.bind
      · split
        · exact smooth.store _ _
        · exact Trips.pure ()
      · intro stored
        exact smooth.store_zeros target segment

theorem send (signal : Restart.Signal) : Trips Crash.OffBoundary (signal.send remote) := by
  rw [Restart.Controller.send_eq]
  exact (Trips.note _ _ _).bind fun _ => smooth.store _ _

theorem reboot (controller : Restart.Controller) :
    Trips Crash.OffBoundary (controller.reboot remote) := by
  have patched : Trips Crash.OffBoundary (controller.patch remote) := by
    apply (Trips.gate_address controller).bind
    intro address
    apply (Trips.of_except _).bind
    intro gate
    exact (Trips.note _ _ _).bind fun _ => smooth.store _ _
  exact patched.bind fun _ => (smooth.send .init).bind fun _ => smooth.send .nmi

theorem read_rom {count : Nat} (counted : count * 4 < 0x100000000) :
    Trips Crash.OffBoundary (Rom.readRom remote count) := by
  rw [Rom.readRom, if_pos counted]
  exact (smooth.fetch _ _).bind fun _ => Trips.pure _

end Remote.CrashesIn

namespace Command

variable {ρ : Type}

/-- The machine that keeps all calls of the bus program. -/
def Machine.recorded (machine : Machine ρ) : Machine (ρ × List Exchange) where
  launch := machine.launch.recorded
  files kept := machine.files kept.1

namespace Console

/-- A console whose machine has kept no call so far. -/
def unrecorded (console : Console ρ) : Console (ρ × List Exchange) where
  machine := (console.machine, [])
  output := console.output
  purpose := console.purpose

/-- The console without what its machine keeps. -/
def forget (kept : Console (ρ × List Exchange)) : Console ρ where
  machine := kept.machine.1
  output := kept.output
  purpose := kept.purpose

/-- The calls that the machine of a console keeps. -/
def record (kept : Console (ρ × List Exchange)) : List Exchange :=
  kept.machine.2

/-- Consoles that differ in nothing but the calls that one of them keeps. -/
def Forgets (kept : Console (ρ × List Exchange)) (console : Console ρ) : Prop :=
  kept.forget = console

theorem recorded_answers (machine : Machine ρ) :
    AnswersTrack Forgets (launch machine.recorded.launch) (launch machine.launch) := by
  rintro call kept console rfl
  exact ⟨rfl, rfl⟩

/-- A console runs the bus program on its machine. -/
theorem machine_answers (machine : Machine ρ) :
    AnswersTrack (fun console place => console.machine = place) (launch machine.launch)
      machine.launch := by
  rintro call console place rfl
  exact ⟨rfl, rfl⟩

section Tracking

theorem print_tracks (line : String) :
    Tracks Forgets (print line : Engine (Console (ρ × List Exchange)) Unit) (print line) := by
  constructor
  · rintro kept console rfl
    rfl
  · rintro kept console rfl
    rfl

theorem set_purpose_tracks (purpose : String) :
    Tracks Forgets (setPurpose purpose : Engine (Console (ρ × List Exchange)) Unit)
      (setPurpose purpose) := by
  constructor
  · rintro kept console rfl
    rfl
  · rintro kept console rfl
    rfl

theorem open_image_tracks (machine : Machine ρ) (path : Path) :
    Tracks Forgets (openImage machine.recorded.files path) (openImage machine.files path) := by
  constructor
  · rintro kept console rfl
    rfl
  · rintro kept console rfl
    rfl

theorem dump_tracks (lines address offset : Nat) (bytes : Bytes) :
    Tracks Forgets (dump lines address offset bytes : Engine (Console (ρ × List Exchange)) Unit)
      (dump lines address offset bytes) := by
  induction lines generalizing offset bytes with
  | zero => exact Tracks.pure ()
  | succ lines ih =>
      cases bytes with
      | nil => exact Tracks.pure ()
      | cons byte bytes =>
          apply (Tracks.of_checked _).bind
          intro place
          exact (print_tracks _).bind fun _ => ih _ _

end Tracking

section Crashes

theorem print_trips {allowed : Crash → Prop} (line : String) :
    Trips allowed (print line : Engine (Console ρ) Unit) := by
  constructor
  intro console crash stopped
  cases stopped

theorem set_purpose_trips {allowed : Crash → Prop} (purpose : String) :
    Trips allowed (setPurpose purpose : Engine (Console ρ) Unit) := by
  constructor
  intro console crash stopped
  cases stopped

theorem open_image_trips (files : ρ → FileSource) (path : Path) :
    Trips Crash.OffBoundary (openImage files path) := by
  have looked : Trips Crash.OffBoundary (Engine.look : Engine (Console ρ) (Console ρ)) := by
    constructor
    intro console crash stopped
    cases stopped
  apply looked.bind
  intro console
  apply Trips.of_noted
  intro crash stopped address same
  unfold Image.ofFile at stopped
  split at stopped
  · rw [Image.result_decode] at stopped
    rcases Image.Refuses.read _ _ stopped with broken | ⟨reason, refused⟩
    · cases broken
      cases same
    · cases refused
  · cases stopped

theorem dump_trips (lines address offset : Nat) (bytes : Bytes) :
    Trips Crash.OffBoundary (dump lines address offset bytes : Engine (Console ρ) Unit) := by
  induction lines generalizing offset bytes with
  | zero => exact Trips.pure ()
  | succ lines ih =>
      cases bytes with
      | nil => exact Trips.pure ()
      | cons byte bytes =>
          apply (Trips.off_boundary_sum _ _).bind
          intro place
          exact (print_trips _).bind fun _ => ih _ _

/-- The bus program crashes in sums of addresses only. -/
theorem crashes_off_boundary (machine : Machine ρ) (settings : BusSettings) :
    (BusProgram.remote (launch machine.launch) settings).CrashesIn Crash.OffBoundary := by
  apply (crashes_in_sums _ settings).mono
  rintro crash rfl address misaligned
  cases misaligned

end Crashes
end Console

namespace ToolCommand

/-- The calls that are kept do not change what a command does. -/
theorem program_tracks (machine : Machine ρ) (command : ToolCommand) (settings : Settings) :
    Tracks Console.Forgets (command.program machine.recorded settings)
      (command.program machine settings) := by
  have reads := (Console.recorded_answers machine).reads settings.bus
  have writes := (Console.recorded_answers machine).writes settings.bus
  cases command with
  | reboot hypervisor =>
      apply (Console.open_image_tracks machine _).bind
      intro image
      exact (Console.set_purpose_tracks _).bind fun _ => writes.reboot _
  | load path =>
      apply (Console.open_image_tracks machine _).bind
      intro image
      apply (Console.set_purpose_tracks _).bind
      intro purposed
      exact (image.load_tracks writes).bind fun entry => Console.print_tracks _
  | peek address length =>
      exact (reads address length).bind fun bytes => Console.dump_tracks _ _ _ _
  | poke address value => exact writes.store_word address value
  | rom =>
      apply reads.discover.bind
      intro discovery
      apply (Console.print_tracks _).bind
      intro printed
      apply (reads.read_rom _).bind
      intro quadlets
      exact Tracks.for_all (fun _ => Console.print_tracks _) _
  | interrupt vector => exact (Tracks.note _ _ _).bind fun _ => writes.store_word _ _

/-- What the parser sees to: an address fits in 64 bits and a length in 32, and a word is written to
a word boundary. -/
def Fits : ToolCommand → Prop
  | .peek address length => address < 0x10000000000000000 ∧ length < 0x100000000
  | .poke address _ => address < 0x10000000000000000 ∧ address % 4 = 0
  | _ => True

theorem fits_of_asks {arguments : List Text} {command : ToolCommand}
    (asks : Asks arguments command) : command.Fits := by
  cases asks with
  | peekWord typed => exact ⟨Numeral.lt_of_argument typed, by decide⟩
  | peek typed sized small => exact ⟨Numeral.lt_of_argument typed, small⟩
  | poke typed aligned valued small exact => exact ⟨Numeral.lt_of_argument typed, aligned⟩
  | _ => exact trivial

theorem program_trips (machine : Machine ρ) {command : ToolCommand} (fits : command.Fits)
    (settings : Settings) : Trips Crash.OffBoundary (command.program machine settings) := by
  have smooth := Console.crashes_off_boundary machine settings.bus
  cases command with
  | reboot hypervisor =>
      apply (Console.open_image_trips machine.files _).bind
      intro image
      exact (Console.set_purpose_trips _).bind fun _ => smooth.reboot _
  | load path =>
      apply (Console.open_image_trips machine.files path).bind
      intro image
      apply (Console.set_purpose_trips _).bind
      intro purposed
      exact (smooth.load image).bind fun entry => Console.print_trips _
  | peek address length =>
      exact (smooth.fetch _ _).bind fun bytes => Console.dump_trips _ _ _ _
  | poke address value => exact smooth.store_word (fun unaligned => absurd fits.2 unaligned) value
  | rom =>
      apply smooth.discover.bind
      intro discovery
      apply (Console.print_trips _).bind
      intro printed
      apply (smooth.read_rom (by decide)).bind
      intro quadlets
      exact Trips.for_all (fun _ => Console.print_trips _) _
  | interrupt vector => exact smooth.send _

end ToolCommand
end Command
end RemoteBoot
