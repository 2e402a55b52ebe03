import RemoteBoot.Boot.Session
import RemoteBoot.Proofs.Multiboot.Operations

/-!
# Where the files of a manifest go

A manifest gives each of its files a place.  `placements` lists the places without a loader: a file
goes to the address asked for since the file before it, and otherwise behind that file on the next
page.  Placing entries on a node writes the files at these places, in this order, up to the first
that cannot be read or does not fit.
-/

set_option autoImplicit false

namespace RemoteBoot

/-- The contents of a file; none for a file that cannot be read. -/
def FileSource.contents (source : FileSource) (file : Path) : Bytes :=
  match source.read file with
  | .ok contents => contents
  | .error _ => []

namespace Boot

open Multiboot Node

/-- A file with its command line and the address it goes to. -/
structure Placement where
  start : Nat
  file : Path
  commandLine : Text
  deriving DecidableEq, Repr

namespace Placement

def stop (source : FileSource) (placement : Placement) : Nat :=
  placement.start + (source.contents placement.file).length

def write (source : FileSource) (placement : Placement) : Write :=
  ⟨placement.start, source.contents placement.file⟩

def module (source : FileSource) (placement : Placement) : Module :=
  ⟨placement.start, placement.stop source, placement.commandLine⟩

structure Sound (source : FileSource) (placement : Placement) : Prop where
  readable : source.read placement.file = .ok (source.contents placement.file)
  fits : placement.stop source < 0x100000000

/-- No byte of the file lies from `start` on and below `stop`. -/
def Clears (source : FileSource) (start stop : Nat) (placement : Placement) : Prop :=
  source.contents placement.file = [] ∨ placement.stop source ≤ start ∨ stop ≤ placement.start

instance (source : FileSource) (start stop : Nat) (placement : Placement) :
    Decidable (placement.Clears source start stop) :=
  inferInstanceAs (Decidable (_ ∨ _ ∨ _))

theorem misses_iff_clears (source : FileSource) (placement : Placement) {start stop : Nat}
    (some : start < stop) :
    (placement.write source).Misses start stop ↔ placement.Clears source start stop := by
  rw [Write.misses_iff _ some, List.length_eq_zero_iff]
  rfl

theorem outside_of_clears {source : FileSource} {placement : Placement} {start stop : Nat}
    (clears : placement.Clears source start stop) {write : Write} (lower : start ≤ write.address)
    (upper : write.address + write.bytes.length ≤ stop) {offset : Nat}
    (within : offset < (source.contents placement.file).length) :
    write.covers (placement.start + offset) = false := by
  rw [Write.covers_eq_false_iff]
  rcases clears with empty | before | behind
  · rw [empty] at within
    cases within
  · rw [Placement.stop] at before
    omega
  · omega

end Placement

/-- Where the next file goes behind some entries, the newest entry first: at the address last asked
for since the file before it, otherwise at the end of that file rounded up to a multiple of 4096, and
at the initial address if there is neither. -/
def nextStart (source : FileSource) (initial : Nat) : List Manifest.Entry → Nat
  | [] => initial
  | .address address :: _ => address
  | .load file _ :: earlier =>
    (nextStart source initial earlier + (source.contents file).length + 4095) / 4096 * 4096

/-- The places of the files in some entries behind earlier ones, which stand newest first. -/
def placements (source : FileSource) (initial : Nat) :
    List Manifest.Entry → List Manifest.Entry → List Placement
  | _, [] => []
  | earlier, .address address :: entries =>
    placements source initial (.address address :: earlier) entries
  | earlier, .load file commandLine :: entries =>
    ⟨nextStart source initial earlier, file, commandLine⟩ ::
      placements source initial (.load file commandLine :: earlier) entries

def loads : List Manifest.Entry → List (Path × Text)
  | [] => []
  | .address _ :: entries => loads entries
  | .load file commandLine :: entries => (file, commandLine) :: loads entries

section Placing

variable {source : FileSource} {loader : Loader} {node : Node}

theorem place_address (source : FileSource) (unarmed : loader.phase ≠ .armed) (address : Nat)
    (node : Node) :
    Returns (place remote (fun _ => source) loader (.address address)) node
      { loader with cursor := address } [] := by
  rw [place, Loader.set_address_unarmed unarmed]
  apply (returns_note _ _ _ node).bind
  intro noted tookNote
  exact returns_pure _ noted

theorem place_load (present : node.absent = false) (unarmed : loader.phase ≠ .armed)
    {placement : Placement} (start : placement.start = loader.cursor)
    (sound : placement.Sound source) :
    Returns (place remote (fun _ => source) loader (.load placement.file placement.commandLine))
      node (loader.taking (placement.module source)) [placement.write source] := by
  have fits := sound.fits
  rw [Placement.stop, start] at fits
  rw [place, Engine.look_bind_const, sound.readable, Placement.write, Placement.module,
    Placement.stop, start]
  apply (Loader.returns_push present unarmed placement.commandLine fits).bind
  intro pushed took
  exact returns_pure _ pushed

theorem place_load_stops (unarmed : loader.phase ≠ .armed) {placement : Placement}
    (start : placement.start = loader.cursor) (unsound : ¬ placement.Sound source) (node : Node) :
    Stops (place remote (fun _ => source) loader (.load placement.file placement.commandLine))
      node [] := by
  rw [place, Engine.look_bind_const]
  cases found : source.read placement.file with
  | error failure => exact stops_fail _ node
  | ok payload =>
      have contents : source.contents placement.file = payload := by
        simp only [FileSource.contents, found]
      have large : 0x100000000 ≤ loader.cursor + payload.length := by
        apply Nat.not_lt.mp
        intro fits
        apply unsound
        refine ⟨by rw [contents, found], ?_⟩
        rw [Placement.stop, start, contents]
        exact fits
      obtain ⟨address, refused⟩ :=
        Loader.push_of_large remote unarmed placement.commandLine large
      simp only [refused]
      exact (stops_of_checked rfl node).bind _

structure Placed (source : FileSource) (placements : List Placement) (before after : Loader) :
    Prop where
  controlBlock : after.controlBlock = before.controlBlock
  modules : after.modules = before.modules ++ placements.map (Placement.module source)
  isOpen : after.Open

structure PlacesAll (source : FileSource) (entries : List Manifest.Entry) (loader : Loader)
    (node : Node) (placements : List Placement) (after : Loader) : Prop where
  sound : ∀ placement ∈ placements, placement.Sound source
  placed : Placed source placements loader after
  returns : Returns (placeAll remote (fun _ => source) loader entries) node after
    (placements.map (Placement.write source))

structure PlacesSome (source : FileSource) (entries : List Manifest.Entry) (loader : Loader)
    (node : Node) (placements placed : List Placement) : Prop where
  front : placed <+: placements
  stops : Stops (placeAll remote (fun _ => source) loader entries) node
    (placed.map (Placement.write source))
  unsound : ∃ placement ∈ placements, ¬ placement.Sound source

/-- Placing entries behind earlier ones writes their files at the listed places, or a part of them
from the front when it stops. -/
theorem place_all_cases (present : node.absent = false) (isOpen : loader.Open) {initial : Nat}
    {earlier : List Manifest.Entry} (entries : List Manifest.Entry)
    (cursor : loader.cursor = nextStart source initial earlier) :
    (∃ after, PlacesAll source entries loader node (placements source initial earlier entries)
        after) ∨
      ∃ placed, PlacesSome source entries loader node (placements source initial earlier entries)
        placed := by
  induction entries generalizing loader node earlier with
  | nil =>
      refine Or.inl ⟨loader, by simp [placements], ⟨rfl, by simp [placements], isOpen⟩, ?_⟩
      exact returns_pure loader node
  | cons entry entries ih =>
      cases entry with
      | address address =>
          have step := place_address source isOpen.unarmed address node
          have moved : ({ loader with cursor := address } : Loader).Open :=
            ⟨isOpen.unarmed, isOpen.idle_iff⟩
          have there := step.took.present present
          have advanced : ({ loader with cursor := address } : Loader).cursor =
              nextStart source initial (.address address :: earlier) := rfl
          rcases ih there moved advanced with ⟨after, rest⟩ | ⟨placed, rest⟩
          · exact Or.inl ⟨after, rest.sound,
              ⟨rest.placed.controlBlock, rest.placed.modules, rest.placed.isOpen⟩,
              step.then_returns rest.returns⟩
          · exact Or.inr ⟨placed, rest.front, step.then_stops rest.stops, rest.unsound⟩
      | load file commandLine =>
          let placement : Placement := ⟨nextStart source initial earlier, file, commandLine⟩
          by_cases sound : placement.Sound source
          · have step := place_load present isOpen.unarmed cursor.symm sound
            have there := step.took.present present
            have advanced : (loader.taking (placement.module source)).cursor =
                nextStart source initial (.load file commandLine :: earlier) := rfl
            rcases ih there (Loader.open_taking loader _) advanced with
              ⟨after, rest⟩ | ⟨placed, rest⟩
            · refine Or.inl ⟨after, List.forall_mem_cons.mpr ⟨sound, rest.sound⟩, ⟨?_, ?_, ?_⟩,
                step.then_returns rest.returns⟩
              · rw [rest.placed.controlBlock, Loader.taking, Loader.accept]
              · rw [rest.placed.modules, Loader.taking, Loader.accept, List.append_assoc]
                rfl
              · exact rest.placed.isOpen
            · obtain ⟨lost, listed, unsound⟩ := rest.unsound
              refine Or.inr ⟨placement :: placed, ?_, step.then_stops rest.stops, lost,
                List.mem_cons_of_mem placement listed, unsound⟩
              exact List.cons_prefix_cons.mpr ⟨rfl, rest.front⟩
          · -- The first file that cannot be placed ends the run of writes.
            have step := place_load_stops isOpen.unarmed cursor.symm sound node
            exact Or.inr ⟨[], List.nil_prefix, step.bind _, placement, List.mem_cons_self, sound⟩

end Placing
end Boot
end RemoteBoot
