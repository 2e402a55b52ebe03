import RemoteBoot.Proofs.Multiboot.Operations
import RemoteBoot.Proofs.Text.Utf8

/-!
# Reading the descriptor block back

Memory that shows the descriptor block of modules describes each of them: four words at the place
of its descriptor, the third of which points at its command line as a string that a zero byte ends.
A command line with a zero character in it is cut there.
-/

set_option autoImplicit false

namespace RemoteBoot

namespace Multiboot

namespace Module

theorem descriptor_ok {module : Module} {line : Nat} {descriptor : Descriptor}
    (made : module.descriptor line = .ok descriptor) :
    descriptor = ⟨UInt32.ofNat module.start, UInt32.ofNat module.stop, UInt32.ofNat line⟩ ∧
      module.start < 0x100000000 ∧ module.stop < 0x100000000 ∧ line < 0x100000000 := by
  unfold Module.descriptor at made
  cases lineWord : narrow line with
  | error fault => rw [lineWord] at made; cases made
  | ok lineWord' =>
      cases startWord : narrow module.start with
      | error fault => rw [lineWord, startWord] at made; cases made
      | ok startWord' =>
          cases stopWord : narrow module.stop with
          | error fault => rw [lineWord, startWord, stopWord] at made; cases made
          | ok stopWord' =>
              rw [lineWord, startWord, stopWord] at made
              cases made
              obtain ⟨rfl, lineFits⟩ := narrow_ok lineWord
              obtain ⟨rfl, startFits⟩ := narrow_ok startWord
              obtain ⟨rfl, stopFits⟩ := narrow_ok stopWord
              exact ⟨rfl, startFits, stopFits, lineFits⟩

/-- Descriptors of a nonempty list are the first one and those of the rest. -/
theorem descriptors_cons_ok {line : Nat} {module : Module} {modules : List Module}
    {all : List Descriptor} (made : descriptors line (module :: modules) = .ok all) :
    ∃ first others, module.descriptor line = .ok first ∧
      descriptors (line + module.lineBytes.length) modules = .ok others ∧
      all = first :: others := by
  unfold descriptors at made
  obtain ⟨first, firstMade, behind⟩ := ok_of_bind_ok made
  obtain ⟨next, formed, further⟩ := ok_of_bind_ok behind
  obtain ⟨others, othersMade, listed⟩ := ok_of_bind_ok further
  obtain ⟨rfl, _⟩ := Checked.sum_ok formed
  cases listed
  exact ⟨first, others, ok_of_lift firstMade, othersMade, rfl⟩

/-- There is one descriptor for each module, and the command lines end below four gigabytes. -/
theorem descriptors_bound {line : Nat} {modules : List Module} {all : List Descriptor}
    (made : descriptors line modules = .ok all) :
    all.length = modules.length ∧ line + (modules.flatMap lineBytes).length < 0x100000000 := by
  induction modules generalizing line all with
  | nil =>
      unfold descriptors at made
      obtain ⟨word, endWord, listed⟩ := ok_of_bind_ok made
      cases listed
      exact ⟨rfl, (narrow_ok (ok_of_lift endWord)).2⟩
  | cons module modules ih =>
      obtain ⟨first, others, _, othersMade, rfl⟩ := descriptors_cons_ok made
      obtain ⟨count, bound⟩ := ih othersMade
      simp only [List.flatMap_cons, List.length_append, List.length_cons]
      omega

/-- The descriptor of a module points behind the command lines of the modules before it. -/
theorem descriptors_at {line : Nat} {modules : List Module} {all : List Descriptor}
    (made : descriptors line modules = .ok all) {index : Nat} (inside : index < modules.length)
    (listed : index < all.length) :
    modules[index].descriptor (line + ((modules.take index).flatMap lineBytes).length) =
      .ok all[index] := by
  induction modules generalizing line all index with
  | nil => simp at inside
  | cons module modules ih =>
      obtain ⟨first, others, firstMade, othersMade, rfl⟩ := descriptors_cons_ok made
      cases index with
      | zero => simpa using firstMade
      | succ index =>
          have later := ih othersMade (Nat.lt_of_succ_lt_succ inside)
            (Nat.lt_of_succ_lt_succ listed)
          simp only [List.take_succ_cons, List.flatMap_cons, List.length_append,
            List.getElem_cons_succ]
          rw [← Nat.add_assoc]
          exact later

theorem length_descriptor_bytes (descriptor : Descriptor) :
    descriptor.toBytes.length = Descriptor.size := by
  simp [Descriptor.toBytes, Word.length_bytes, Descriptor.size]

/-- A block that could be made is the descriptors with the command lines behind them. -/
theorem block_ok {base : Nat} {modules : List Module} {bytes : Bytes}
    (made : block base modules = .ok bytes) :
    ∃ all, descriptors (base + Descriptor.size * modules.length) modules = .ok all ∧
      bytes = all.flatMap Descriptor.toBytes ++ modules.flatMap lineBytes := by
  unfold block at made
  obtain ⟨line, formed, behind⟩ := ok_of_bind_ok made
  obtain ⟨all, descriptorsMade, listed⟩ := ok_of_bind_ok behind
  obtain ⟨rfl, _⟩ := Checked.sum_ok formed
  cases listed
  exact ⟨all, descriptorsMade, rfl⟩

/-- Where the command line of a module lies: behind all descriptors, 16 bytes each, and behind the
command lines of the modules before it with their zero bytes. -/
def lineAddress (base : Nat) (modules : List Module) (index : Nat) : Nat :=
  base + 16 * modules.length +
    ((modules.take index).flatMap fun module => Utf8.encode module.commandLine ++ [0]).length

/-- The descriptor block byte by byte: of each module its start, its end, the address of its command
line and zero, as little-endian words; then the command lines, each with a zero byte behind it. -/
def layout (base : Nat) (modules : List Module) : Bytes :=
  (modules.mapIdx fun index module =>
    [module.start, module.stop, lineAddress base modules index, 0].flatMap fun number =>
      Word.bytes (UInt32.ofNat number)).flatten ++
    modules.flatMap fun module => Utf8.encode module.commandLine ++ [0]

/-- A block that could be made lies byte by byte as it should. -/
theorem layout_of_block {base : Nat} {modules : List Module} {bytes : Bytes}
    (made : block base modules = .ok bytes) : bytes = layout base modules := by
  obtain ⟨all, descriptorsMade, rfl⟩ := block_ok made
  have count := (descriptors_bound descriptorsMade).1
  have words : all.map Descriptor.toBytes = modules.mapIdx fun index module =>
      [module.start, module.stop, lineAddress base modules index, 0].flatMap fun number =>
        Word.bytes (UInt32.ofNat number) := by
    apply List.ext_getElem
    · rw [List.length_map, List.length_mapIdx, count]
    · intro index listed inside
      rw [List.length_mapIdx] at inside
      rw [List.length_map] at listed
      have own := (descriptor_ok (descriptors_at descriptorsMade inside listed)).1
      rw [List.getElem_map, List.getElem_mapIdx, own]
      rfl
  rw [layout, ← words, ← List.flatMap_def]
  rfl

theorem length_flat_map_to_bytes (all : List Descriptor) :
    (all.flatMap Descriptor.toBytes).length = Descriptor.size * all.length := by
  induction all with
  | nil => rfl
  | cons descriptor all ih =>
      rw [List.flatMap_cons, List.length_append, ih, length_descriptor_bytes, List.length_cons,
        Nat.mul_succ, Nat.add_comm]

theorem block_fits {base : Nat} {modules : List Module} {bytes : Bytes}
    (made : block base modules = .ok bytes) : base + bytes.length < 0x100000000 := by
  obtain ⟨all, descriptorsMade, rfl⟩ := block_ok made
  obtain ⟨count, bound⟩ := descriptors_bound descriptorsMade
  rw [List.length_append, length_flat_map_to_bytes, count]
  omega

end Module
end Multiboot
end RemoteBoot
