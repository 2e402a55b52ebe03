import RemoteBoot.Proofs.Boot.WriteTrace

/-!
# Who touches the go signal

The agent waits for one word of its control block to change.  Nothing that a session writes to
publish the modules covers this word before the go signal, but a file may be placed over it: the
place of a file is not checked against the control block.  So the word is left alone exactly when no
file that came to be written covers it.
-/

set_option autoImplicit false

namespace RemoteBoot.Boot

open Multiboot Node

/-- Before the go signal no write covers the word of the go signal: none but the last one of a
session that succeeds, none at all of a session that stops. -/
def SignalKept (result : Except Stop Report) (written : List Write) (word : Nat) : Prop :=
  match result with
  | .ok _ => ∀ write ∈ written.dropLast, write.Misses word (word + 4)
  | .error _ => ∀ write ∈ written, write.Misses word (word + 4)

/-- Where only files can cover a word, the files that were written decide. -/
theorem misses_front_iff {source : FileSource} {placements : List Placement}
    {written rest : List Write} {word : Nat}
    (clear : ∀ write ∈ rest, write.Misses word (word + 4))
    (front : written <+: placements.map (Placement.write source) ++ rest) :
    (∀ write ∈ written, write.Misses word (word + 4)) ↔
      ∀ placement ∈ placements.take written.length,
        placement.Clears source word (word + 4) := by
  have some : word < word + 4 := by omega
  have split : written = (placements.take written.length).map (Placement.write source) ++
      rest.take (written.length - placements.length) := by
    have taken := List.prefix_iff_eq_take.mp front
    rw [List.take_append, List.length_map, ← List.map_take] at taken
    exact taken
  constructor
  · intro misses placement member
    rw [← placement.misses_iff_clears source some]
    apply misses
    rw [split]
    exact List.mem_append_left _ (List.mem_map_of_mem member)
  · intro clears write member
    rw [split, List.mem_append] at member
    rcases member with payload | other
    · obtain ⟨placement, placed, rfl⟩ := List.mem_map.mp payload
      rw [placement.misses_iff_clears source some]
      exact clears placement placed
    · exact clear write (List.mem_of_mem_take other)

theorem block_misses (controlBlock : Nat) (block : Bytes) :
    Write.Misses ⟨controlBlock + 0x4000, block⟩ (controlBlock + 20) (controlBlock + 20 + 4) := by
  intro place lower upper
  rw [Write.covers_eq_false_iff]
  exact Or.inl (by simp only; omega)

theorem publication_misses (loader : Loader) (memory : Memory) (block : Bytes) :
    ∀ write ∈ loader.publication memory block,
      write.Misses (loader.controlBlock + 20) (loader.controlBlock + 20 + 4) := by
  rw [Loader.publication_eq]
  intro write member
  simp only [List.mem_cons, List.not_mem_nil, or_false] at member
  rcases member with rfl | rfl | rfl
  · exact block_misses loader.controlBlock block
  · intro place lower upper
    rw [Write.covers_eq_false_iff, Word.length_bytes]
    exact Or.inr (by simp only; omega)
  · intro place lower upper
    rw [Write.covers_eq_false_iff]
    exact Or.inl (by simp only; omega)

theorem peek_word_of_misses {before after : Node} {written : List Write} {word : Nat}
    (took : before.Took written after)
    (misses : ∀ write ∈ written, write.Misses word (word + 4)) :
    after.memory.peekWord word = before.memory.peekWord word := by
  rw [Memory.peekWord, Memory.peekWord, took.memory]
  apply congrArg
  apply Memory.peek_congr
  intro offset inside
  apply before.memory.byte_at_replay_outside
  intro write member
  exact misses write member _ (Nat.le_add_right _ _) (by omega)

section Sessions

variable (node : Node) (source : FileSource) (manifest root : Path) (cursor : Nat)

theorem ready_front :
    ∃ written rest, node.Took written (ready remote source manifest root cursor node).node ∧
      written <+: (plan source manifest root cursor).map (Placement.write source) ++ rest ∧
      ∀ write ∈ rest, write.Misses (node.memory.controlBlockAddress + 20)
        (node.memory.controlBlockAddress + 20 + 4) := by
  rcases ready_cases node source manifest root cursor with
    ⟨after, block, readied⟩ | ⟨issued, block, front, stopped⟩
  · refine ⟨_, _, readied.readies.took, List.prefix_refl _, ?_⟩
    rw [← readied.controlBlock]
    exact publication_misses after _ block
  · refine ⟨_, _, stopped.took, front, ?_⟩
    intro write member
    rw [List.mem_singleton.mp member]
    exact block_misses _ block

/-- All writes of a session that succeeds but the last are files or spare the go signal. -/
theorem kept_of_ok {report : Report}
    (booted : (run remote source manifest root cursor node).result = .ok report) :
    let written := (run remote source manifest root cursor node).node.writes.drop
      node.writes.length
    let word := node.memory.controlBlockAddress + 20
    report.controlBlock = node.memory.controlBlockAddress ∧
      ((∀ write ∈ written.dropLast, write.Misses word (word + 4)) ↔
        ∀ placement ∈ (plan source manifest root cursor).take written.length,
          placement.Clears source word (word + 4)) := by
  intro written word
  obtain ⟨after, block, readied, rfl⟩ := readies_of_ok node source manifest root cursor booted
  have returned := run_returns node source manifest root cursor readied
  have all : written = _ := returned.took.issued
  have misses := publication_misses after
    (node.memory.replay ((plan source manifest root cursor).map (Placement.write source))) block
  rw [readied.controlBlock] at misses
  refine ⟨readied.controlBlock, ?_⟩
  rw [all, List.dropLast_concat, misses_front_iff misses (List.prefix_refl _)]
  -- Both counts reach beyond the plan, so either takes all of it.
  rw [List.take_of_length_le, List.take_of_length_le]
  all_goals
    simp only [List.length_append, List.length_map]
    omega

/-- What reaches the node in front of the go signal are files or spares it. -/
theorem kept_of_front {issued : List Write} {left : Node} (took : node.Took issued left)
    (behind : left.writes <+: (ready remote source manifest root cursor node).node.writes) :
    (∀ write ∈ issued, write.Misses (node.memory.controlBlockAddress + 20)
        (node.memory.controlBlockAddress + 20 + 4)) ↔
      ∀ placement ∈ (plan source manifest root cursor).take issued.length,
        placement.Clears source (node.memory.controlBlockAddress + 20)
          (node.memory.controlBlockAddress + 20 + 4) := by
  obtain ⟨calm, rest, calmTook, front, misses⟩ := ready_front node source manifest root cursor
  have begun : issued <+: calm := by
    rw [took.log, calmTook.log] at behind
    exact (List.prefix_append_right_inj _).mp behind
  exact misses_front_iff misses (begun.trans front)

/-- On any node and under any faults, the word of the go signal is kept exactly when no file that
came to be written covers it, and a session that stops and kept it leaves it as it was. -/
theorem signal_kept_iff {τ : Type} (schedule : Schedule τ) (state : τ) :
    let left := run (remote.disturbed schedule) source manifest root cursor (node, state)
    let written := left.node.1.writes.drop node.writes.length
    let word := node.memory.controlBlockAddress + 20
    (∀ report, left.result = .ok report →
      report.controlBlock = node.memory.controlBlockAddress) ∧
    (SignalKept left.result written word ↔
      ∀ placement ∈ (plan source manifest root cursor).take written.length,
        placement.Clears source word (word + 4)) ∧
    ∀ stop, left.result = .error stop → SignalKept left.result written word →
      left.node.1.memory.peekWord word = node.memory.peekWord word := by
  intro left written word
  rcases run_disturbed schedule source manifest root cursor node state with
    ⟨agrees, report, booted⟩ | ⟨⟨stop, failed⟩, ⟨issued, took⟩, behind⟩
  · have result : left.result = .ok report := agrees.result.trans booted
    have kept := kept_of_ok node source manifest root cursor booted
    rw [← agrees.node] at kept
    refine ⟨?_, ?_, ?_⟩
    · intro other same
      rw [result] at same
      cases same
      exact kept.1
    · rw [result]
      exact kept.2
    · intro stop failed
      rw [result] at failed
      cases failed
  · have result : left.result = .error stop := failed
    have all : written = issued := took.issued
    refine ⟨?_, ?_, ?_⟩
    · intro report booted
      rw [result] at booted
      cases booted
    · rw [result, all]
      exact kept_of_front node source manifest root cursor took behind
    · intro other same kept
      rw [result, all] at kept
      exact peek_word_of_misses took kept

end Sessions

/-- A manifest that places a file over the go signal and then names a file that is missing. -/
def overSignal : FileSource :=
  (MemoryFiles.ofList [
    (.ofString "/boot/a.conf", Utf8.encode "addr 9f014\nload k\nload absent\n".toList),
    (.ofString "/boot/k", [1, 0, 0, 0])]).source

def undisturbed : Schedule Unit where
  onRead _ _ state := (.pass, state)
  onWrite _ _ state := (.pass, state)

/-- The go signal is not kept by every session: this one stops and has given it. -/
theorem signal_not_always_kept :
    ¬ ∀ (node : Node) (source : FileSource) (manifest root : Path) (cursor : Nat)
        (schedule : Schedule Unit),
      let left := run (remote.disturbed schedule) source manifest root cursor (node, ())
      SignalKept left.result (left.node.1.writes.drop node.writes.length)
        (node.memory.controlBlockAddress + 20) := by
  intro always
  have kept := always (withAgent 0x9f000) overSignal (.ofString "a.conf") (.ofString "/boot")
    0x1000000 undisturbed
  have stopped : (run (remote.disturbed undisturbed) overSignal (.ofString "a.conf")
      (.ofString "/boot") 0x1000000 (withAgent 0x9f000, ())).result.toOption = none := by
    decide +kernel
  have written : (run (remote.disturbed undisturbed) overSignal (.ofString "a.conf")
      (.ofString "/boot") 0x1000000 (withAgent 0x9f000, ())).node.1.writes =
        [⟨0x9f014, [1, 0, 0, 0]⟩] := by
    decide +kernel
  have word : (withAgent 0x9f000).memory.controlBlockAddress = 0x9f000 := by
    decide +kernel
  obtain ⟨stop, failed⟩ := error_of_to_option stopped
  simp only [SignalKept, failed, written, word] at kept
  have missed := kept _ List.mem_cons_self 0x9f014 (by decide) (by decide)
  cases missed

end RemoteBoot.Boot
