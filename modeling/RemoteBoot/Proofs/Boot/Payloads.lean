import RemoteBoot.Proofs.Boot.WriteTrace

/-!
# What becomes of the files

Behind a session that succeeds a file is intact exactly when whatever was written later over its
bytes gave them their own values again.  The session does not see to this, since it checks no place
against another; files that lie apart from one another and from what arming writes are all intact.
-/

set_option autoImplicit false

namespace RemoteBoot.Boot

open Multiboot Node

/-- Memory from the start of the file to its stop holds the contents of the file. -/
def Placement.Intact (source : FileSource) (memory : Memory) (placement : Placement) : Prop :=
  memory.peek placement.start (placement.stop source - placement.start) =
    source.contents placement.file

theorem Placement.intact_iff_shows (source : FileSource) (memory : Memory)
    (placement : Placement) :
    placement.Intact source memory ↔
      memory.Shows placement.start (source.contents placement.file) := by
  rw [Intact, stop, Nat.add_sub_cancel_left]
  rfl

/-- Files lie apart from the files behind them and from what arming writes. -/
structure SetApart (source : FileSource) (controlBlock : Nat) (block : Bytes)
    (placements : List Placement) : Prop where
  files : placements.Pairwise fun first later =>
    first.Clears source later.start (later.stop source)
  block : ∀ placement ∈ placements,
    placement.Clears source (controlBlock + 0x4000) (controlBlock + 0x4000 + block.length)
  flags : ∀ placement ∈ placements, placement.Clears source controlBlock (controlBlock + 4)
  words : ∀ placement ∈ placements,
    placement.Clears source (controlBlock + 20) (controlBlock + 28)

theorem trace_spares {source : FileSource} {placements : List Placement} {memory : Memory}
    {controlBlock : Nat} {block : Bytes}
    (apart : SetApart source controlBlock block placements) {index : Nat}
    (inside : index < placements.length) {offset : Nat}
    (within : offset < (source.contents placements[index].file).length) :
    ∀ write ∈ (trace source placements memory controlBlock block).drop (index + 1),
      write.covers (placements[index].start + offset) = false := by
  have member := List.getElem_mem inside
  have length : ∀ word, (Word.bytes word).length = 4 := Word.length_bytes
  have split : (trace source placements memory controlBlock block).drop (index + 1) = _ :=
    List.drop_append_of_le_length (by rw [List.length_map]; exact inside)
  intro write later
  rw [split, ← List.map_drop, List.mem_append] at later
  rcases later with payload | arming
  · obtain ⟨other, behind, rfl⟩ := List.mem_map.mp payload
    have rest := apart.files.drop (i := index)
    rw [List.drop_eq_getElem_cons inside, List.pairwise_cons] at rest
    exact Placement.outside_of_clears (rest.1 other behind) (Nat.le_refl _) (Nat.le_refl _) within
  · simp only [List.mem_cons, List.not_mem_nil, or_false] at arming
    rcases arming with rfl | rfl | rfl | rfl
    · exact Placement.outside_of_clears (apart.block _ member) (Nat.le_refl _) (Nat.le_refl _) within
    · exact Placement.outside_of_clears (apart.flags _ member) (Nat.le_refl _)
        (by simp only [length]; omega) within
    · exact Placement.outside_of_clears (apart.words _ member) (by simp only; omega)
        (by simp only [length]; omega) within
    · exact Placement.outside_of_clears (apart.words _ member) (Nat.le_refl _)
        (by simp only [length]; omega) within

theorem intact_iff_kept {source : FileSource} {placements : List Placement} {memory : Memory}
    {controlBlock : Nat} {block : Bytes} {index : Nat} (inside : index < placements.length) :
    placements[index].Intact source
        (memory.replay (trace source placements memory controlBlock block)) ↔
      ∀ offset, (within : offset < (source.contents placements[index].file).length) → ∀ byte,
        lastByte ((trace source placements memory controlBlock block).drop (index + 1))
            (placements[index].start + offset) = some byte →
          byte = (source.contents placements[index].file)[offset] := by
  have issued : (trace source placements memory controlBlock block)[index]? =
      some (placements[index].write source) := by
    rw [trace, List.getElem?_append_left (by rw [List.length_map]; exact inside),
      List.getElem?_map, List.getElem?_eq_getElem inside]
    rfl
  rw [Placement.intact_iff_shows]
  exact memory.shows_replay_iff issued

section Session

variable {node : Node} {source : FileSource} {manifest root : Path} {cursor : Nat}

/-- A session that succeeds wrote its files at their places, and it left them intact exactly when
its later writes kept their bytes, for instance when the files are set apart. -/
theorem payloads_intact_iff {report : Report}
    (booted : (run remote source manifest root cursor node).result = .ok report) :
    let after := (run remote source manifest root cursor node).node
    let written := after.writes.drop node.writes.length
    let placed := plan source manifest root cursor
    report.modules = placed.map (Placement.module source) ∧
      (∀ placement ∈ placed, placement.Sound source) ∧
      ((∀ placement ∈ placed, placement.Intact source after.memory) ↔
        ∀ index, (inside : index < placed.length) →
          ∀ offset, (within : offset < (source.contents placed[index].file).length) → ∀ byte,
            lastByte (written.drop (index + 1)) (placed[index].start + offset) = some byte →
              byte = (source.contents placed[index].file)[offset]) ∧
      ∃ block, Module.block (report.controlBlock + 0x4000) report.modules = .ok block ∧
        (SetApart source report.controlBlock block placed →
          ∀ placement ∈ placed, placement.Intact source after.memory) := by
  intro after written placed
  obtain ⟨loaded, block, readied, rfl⟩ := readies_of_ok node source manifest root cursor booted
  have returned := run_returns node source manifest root cursor readied
  rw [trace_of_readies readied] at returned
  have memory : after.memory = _ := returned.took.memory
  have writes : written = _ := returned.took.issued
  have kept : (∀ placement ∈ placed, placement.Intact source after.memory) ↔
      ∀ index, (inside : index < placed.length) →
        ∀ offset, (within : offset < (source.contents placed[index].file).length) → ∀ byte,
          lastByte (written.drop (index + 1)) (placed[index].start + offset) = some byte →
            byte = (source.contents placed[index].file)[offset] := by
    rw [List.forall_mem_iff_forall_getElem, memory, writes]
    exact forall_congr' fun index => forall_congr' fun inside => intact_iff_kept inside
  refine ⟨readied.modules, readied.sound, kept, block, readied.block_made, ?_⟩
  intro apart
  rw [kept, writes]
  intro index inside offset within byte later
  rw [(last_byte_eq_none_iff _ _).mpr (trace_spares apart inside within)] at later
  cases later

end Session

theorem two_files_intact :
    (run remote twoFiles (.ofString "a.conf") (.ofString "/boot") 0x1000000
        (withAgent 0x9f000)).result = .ok twoModules ∧
      ∀ placement ∈ plan twoFiles (.ofString "a.conf") (.ofString "/boot") 0x1000000,
        placement.Intact twoFiles (run remote twoFiles (.ofString "a.conf") (.ofString "/boot")
          0x1000000 (withAgent 0x9f000)).node.memory := by
  obtain ⟨block, made, intact⟩ := (payloads_intact_iff two_files_boot).2.2.2
  obtain rfl := Module.layout_of_block made
  refine ⟨two_files_boot, intact ⟨?_, ?_, ?_, ?_⟩⟩ <;> decide +kernel

/-- A manifest that places its second file over the first one. -/
def overFirst : FileSource :=
  (MemoryFiles.ofList [
    (.ofString "/boot/a.conf", Utf8.encode "load a\naddr 1000000\nload b\n".toList),
    (.ofString "/boot/a", [1]),
    (.ofString "/boot/b", [2])]).source

/-- A session that succeeds need not leave its files intact: here the second file has overwritten
the first one. -/
theorem payloads_not_always_intact :
    ¬ ∀ (node : Node) (source : FileSource) (manifest root : Path) (cursor : Nat)
        (report : Report), (run remote source manifest root cursor node).result = .ok report →
      ∀ placement ∈ plan source manifest root cursor,
        placement.Intact source (run remote source manifest root cursor node).node.memory := by
  intro always
  have booted : (run remote overFirst (.ofString "a.conf") (.ofString "/boot") 0x1000000
      (withAgent 0x9f000)).result =
        .ok ⟨0x9f000, [⟨0x1000000, 0x1000001, ['a']⟩, ⟨0x1000000, 0x1000001, ['b']⟩]⟩ :=
    ok_of_to_option (by decide +kernel)
  have first : (⟨0x1000000, .ofString "/boot/a", ['a']⟩ : Placement) ∈
      plan overFirst (.ofString "a.conf") (.ofString "/boot") 0x1000000 := by
    decide +kernel
  have overwritten : ¬ Placement.Intact overFirst (run remote overFirst (.ofString "a.conf")
      (.ofString "/boot") 0x1000000 (withAgent 0x9f000)).node.memory
        ⟨0x1000000, .ofString "/boot/a", ['a']⟩ := by
    unfold Placement.Intact
    decide +kernel
  exact overwritten (always _ _ _ _ _ _ booted _ first)

end RemoteBoot.Boot
