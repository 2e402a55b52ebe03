import RemoteBoot.Proofs.Boot.GoSignal
import RemoteBoot.Proofs.Boot.Overflow
import RemoteBoot.Proofs.Multiboot.Requests

/-!
# When a session crashes

A session touches single words only at its end, and their addresses are as good as the pointer that
the node published: nothing checks it before.  `approach` is the session in front of its first word.
Only a sum could crash in it, and none does for files, steps and command lines that a host can hold.
A session that gets through it crashes exactly if the control block lies off a word boundary, and the
files and the descriptor block are written by then.
-/

set_option autoImplicit false

namespace RemoteBoot.Boot

open Multiboot Node

section Anywhere

variable {σ : Type} (remote : Remote σ) (source : FileSource) (manifest root : Path) (cursor : Nat)

/-- A session in front of its first word. -/
def approach : Engine σ (Loader × ControlBlock) := do
  let loader ← load remote source manifest root cursor
  let control ← loader.announce remote
  pure (loader, control)

theorem run_eq_approach_conclude :
    run remote source manifest root cursor = (do
      let (loader, control) ← approach remote source manifest root cursor
      let armed ← loader.conclude remote control
      pure ⟨armed.controlBlock, armed.modules⟩) := by
  simp only [run_eq_load_arm, Loader.arm_eq_announce_conclude, approach, bind_assoc, pure_bind]

/-- In front of its first word a session crashes at most at a sum, and only if there is more of a
file, of steps or of a command line than a host can hold. -/
theorem approach_trips {remote : Remote σ} (smooth : remote.CrashesIn fun _ => False) :
    Trips (fun crash => crash = .sumOverflow ∧ ¬ Holdable source manifest root)
      (approach remote source manifest root cursor) := by
  by_cases holdable : Holdable source manifest root
  · have smooth := smooth.mono fun crash never =>
      (never.elim : crash = .sumOverflow ∧ ¬ Holdable source manifest root)
    have files : ∀ file payload, source.read file = .ok payload →
        ¬ 0x8000000000000000 ≤ payload.length :=
      fun file payload read => Nat.not_le.mpr (holdable.files file payload read)
    apply (load_trips cursor smooth fun file payload read large =>
      absurd large (files file payload read)).bind_of_yields (load_yields_block cursor holdable)
    intro loader forms
    apply (Loader.announce_trips smooth fun crash failed => absurd failed (forms crash)).bind
    intro control
    exact Trips.pure _
  · have smooth := smooth.mono fun crash never =>
      (never.elim : crash = .sumOverflow ∧ ¬ Holdable source manifest root)
    apply (load_trips cursor smooth fun _ _ _ _ => ⟨rfl, holdable⟩).bind
    intro loader
    have block : ∀ crash, loader.descriptorBlock = .error (.crash crash) →
        crash = .sumOverflow ∧ ¬ Holdable source manifest root := by
      intro crash failed
      rcases OnlyRanges.descriptor_block loader _ failed with overflow | ⟨address, range⟩
      · exact ⟨Stop.crash.inj overflow, holdable⟩
      · cases range
    apply (Loader.announce_trips smooth block).bind
    intro control
    exact Trips.pure _

variable {remote source manifest root cursor}

/-- The first word that a session writes is at the head of the control block. -/
theorem run_of_unaligned {node : σ} {loader : Loader} {control : ControlBlock}
    (reached : (approach remote source manifest root cursor node).result = .ok (loader, control))
    (unaligned : loader.controlBlock % 4 ≠ 0) :
    (run remote source manifest root cursor node).result =
        .error (.crash (.misaligned loader.controlBlock)) ∧
      (run remote source manifest root cursor node).node =
        (approach remote source manifest root cursor node).node := by
  have first : remote.storeWord (loader.controlBlock + ControlBlock.flagsOffset)
      control.withMods.flags = Engine.crash (.misaligned loader.controlBlock) := by
    rw [ControlBlock.flagsOffset, Nat.add_zero, Remote.storeWord, if_pos unaligned]
  rw [run_eq_approach_conclude]
  have left := Engine.bind_of_ok (fun reached : Loader × ControlBlock => do
    let armed ← reached.1.conclude remote reached.2
    pure (⟨armed.controlBlock, armed.modules⟩ : Report)) reached
  rw [Loader.conclude, first] at left
  exact left

/-- A session crashes only at its words, or at a sum of numbers that no host comes to. -/
theorem unaligned_of_crash (smooth : remote.CrashesIn fun _ => False) {node : σ} {crash : Crash}
    (crashed : (run remote source manifest root cursor node).result = .error (.crash crash)) :
    crash = .sumOverflow ∧ ¬ Holdable source manifest root ∨
      ∃ loader control,
        (approach remote source manifest root cursor node).result = .ok (loader, control) ∧
          loader.controlBlock % 4 ≠ 0 := by
  rw [run_eq_approach_conclude] at crashed
  cases reached : (approach remote source manifest root cursor node).result with
  | error stop =>
      rw [(Engine.bind_of_error _ reached).1] at crashed
      cases crashed
      exact Or.inl ((approach_trips source manifest root cursor smooth).own node crash reached)
  | ok both =>
      refine Or.inr ⟨both.1, both.2, rfl, fun aligned => ?_⟩
      have rest : Trips (fun _ => False) (do
          let armed ← both.1.conclude remote both.2
          pure (⟨armed.controlBlock, armed.modules⟩ : Report)) :=
        (Loader.conclude_trips smooth aligned both.2).bind fun _ => Trips.pure _
      rw [(Engine.bind_of_ok _ reached).1] at crashed
      exact rest.own _ crash crashed

theorem unaligned_of_misaligned (smooth : remote.CrashesIn fun _ => False) {node : σ}
    {address : Nat} (crashed : (run remote source manifest root cursor node).result =
      .error (.crash (.misaligned address))) :
    ∃ loader control,
      (approach remote source manifest root cursor node).result = .ok (loader, control) ∧
        loader.controlBlock % 4 ≠ 0 := by
  rcases unaligned_of_crash smooth crashed with ⟨overflow, _⟩ | reached
  · cases overflow
  · exact reached

end Anywhere

section InMemory

variable (node : Node) (source : FileSource) (manifest root : Path) (cursor : Nat)

/-- Everything that a session checks is in order: the node awaits a boot, all files of the manifest
have their places, there is one at least, and the descriptor block can be made. -/
structure Bootable (block : Bytes) : Prop extends
    Placeable node source manifest root cursor where
  some : plan source manifest root cursor ≠ []
  made : Module.block (node.memory.controlBlockAddress + 0x4000)
    ((plan source manifest root cursor).map (Placement.module source)) = .ok block

/-- What a bootable node takes in front of the first word. -/
def frontWrites (block : Bytes) : List Write :=
  (plan source manifest root cursor).map (Placement.write source) ++
    [⟨node.memory.controlBlockAddress + 0x4000, block⟩]

theorem announce_returns {node : Node} (present : node.absent = false) {loader : Loader}
    {block : Bytes} (pushing : loader.phase = .pushing)
    (made : loader.descriptorBlock = .ok block) :
    ∃ control, Returns (loader.announce remote) node control
      [⟨loader.controlBlock + 0x4000, block⟩] := by
  refine ⟨(node.memory.store (loader.controlBlock + 0x4000) block).controlBlock
    loader.controlBlock, ?_⟩
  unfold Loader.announce
  rw [pushing]
  simp only [(Loader.descriptor_block_ok made).1, made, Engine.of_checked_ok, pure_bind]
  apply (returns_note _ _ _ node).bind
  intro noted tookNote
  have there := tookNote.present present
  apply (returns_store there _ _).then_returns
  have tookBlock := (returns_store there (loader.controlBlock + 0x4000) block).took
  have held : (remote.store (loader.controlBlock + 0x4000) block noted).node.memory =
      node.memory.store (loader.controlBlock + 0x4000) block := by
    rw [tookBlock.memory, tookNote.unchanged, Memory.replay_cons, Memory.replay_nil]
  rw [← held]
  exact returns_fetch_control_block (tookBlock.present there) _

theorem announce_stops {node : Node} {loader : Loader} (closed : loader.phase ≠ .pushing ∨
    ∃ stop, loader.descriptorBlock = .error stop) : Stops (loader.announce remote) node [] := by
  unfold Loader.announce
  cases phase : loader.phase with
  | armed => exact stops_fail _ node
  | idle => exact stops_fail _ node
  | pushing =>
      obtain ⟨stop, failed⟩ := closed.resolve_left fun other => other phase
      exact Loader.stops_without_block failed node _

theorem pushing_iff_plan {after : Loader} (loads : Loads node source manifest root cursor after) :
    after.phase = .pushing ↔ plan source manifest root cursor ≠ [] := by
  have idle := loads.isOpen.idle_iff
  rw [loads.modules, List.map_eq_nil_iff] at idle
  have unarmed := loads.isOpen.unarmed
  rw [Ne, ← idle]
  cases phase : after.phase with
  | idle => decide
  | pushing => decide
  | armed => exact absurd phase unarmed

/-- A session comes to its first word exactly on a bootable node. -/
theorem approach_cases :
    (∃ block loader control, Bootable node source manifest root cursor block ∧
      loader.controlBlock = node.memory.controlBlockAddress ∧
      Returns (approach remote source manifest root cursor) node (loader, control)
        (frontWrites node source manifest root cursor block)) ∨
    (¬ ∃ block, Bootable node source manifest root cursor block) ∧
      ∃ stop, (approach remote source manifest root cursor node).result = .error stop := by
  rcases load_cases node source manifest root cursor with
    ⟨after, loads⟩ | ⟨unplaceable, placed, _, stops⟩
  · have there := loads.returns.took.present loads.awaits.present
    have made : after.descriptorBlock = Module.block (node.memory.controlBlockAddress + 0x4000)
        ((plan source manifest root cursor).map (Placement.module source)) := by
      have published : node.memory.controlBlockAddress < 0x100000000 :=
        (node.memory.quadlet Rom.controlBlockIndex).toNat_lt
      rw [Loader.descriptorBlock, Loader.descriptorAddress, loads.controlBlock, loads.modules,
        Checked.sum_of_lt (by omega)]
      rfl
    -- All files are in place, so only arming can refuse: without a file, or without a block.
    by_cases closed : after.phase ≠ .pushing ∨ ∃ stop, after.descriptorBlock = .error stop
    · refine Or.inr ⟨?_, (loads.returns.then_stops ((announce_stops closed).bind _)).result⟩
      rintro ⟨block, bootable⟩
      rcases closed with idle | ⟨stop, failed⟩
      · exact idle ((pushing_iff_plan node source manifest root cursor loads).mpr bootable.some)
      · rw [made, bootable.made] at failed
        cases failed
    · simp only [not_or, not_not, not_exists] at closed
      obtain ⟨pushing, unfailed⟩ := closed
      cases block : after.descriptorBlock with
      | error stop => exact absurd block (unfailed stop)
      | ok block' =>
          obtain ⟨control, announced⟩ := announce_returns there pushing block
          refine Or.inl ⟨block', after, control,
            ⟨⟨loads.awaits, loads.parsed, loads.sound⟩,
              (pushing_iff_plan node source manifest root cursor loads).mp pushing,
              made.symm.trans block⟩, loads.controlBlock, ?_⟩
          rw [loads.controlBlock] at announced
          apply loads.returns.then_returns
          rw [← List.append_nil [_]]
          exact announced.then_returns (returns_pure _ _)
  · refine Or.inr ⟨?_, (stops.bind _).result⟩
    rintro ⟨block, bootable⟩
    exact unplaceable bootable.toPlaceable

theorem crashes_undisturbed_iff :
    (∃ address, (run remote source manifest root cursor node).result =
        .error (.crash (.misaligned address))) ↔
      node.memory.controlBlockAddress % 4 ≠ 0 ∧
        ∃ block, Bootable node source manifest root cursor block := by
  rcases approach_cases node source manifest root cursor with
    ⟨block, loader, control, bootable, own, returned⟩ | ⟨unbootable, stop, failed⟩
  · rw [← own]
    constructor
    · rintro ⟨address, crashed⟩
      obtain ⟨there, found, reached, unaligned⟩ := unaligned_of_misaligned node_never_crashes crashed
      rw [returned.result] at reached
      cases reached
      exact ⟨unaligned, block, bootable⟩
    · rintro ⟨unaligned, _⟩
      exact ⟨_, (run_of_unaligned returned.result unaligned).1⟩
  · refine iff_of_false ?_ fun ⟨_, made⟩ => unbootable made
    rintro ⟨address, crashed⟩
    obtain ⟨there, found, reached, _⟩ := unaligned_of_misaligned node_never_crashes crashed
    rw [failed] at reached
    cases reached

variable {τ : Type} (schedule : Schedule τ)

theorem announce_shadows (loader : Loader) :
    Shadows (loader.announce (remote.disturbed schedule)) (loader.announce remote) := by
  unfold Loader.announce
  cases loader.phase with
  | armed => exact Shadows.fail _
  | idle => exact Shadows.fail _
  | pushing =>
      apply (Shadows.of_checked _).bind
      intro base
      apply (Shadows.of_checked _).bind
      intro block
      apply (Shadows.note _ _ _).bind
      intro noted
      apply (Shadows.store schedule _ _).bind
      intro stored
      exact Shadows.fetch_control_block schedule _

theorem approach_shadows :
    Shadows (approach (remote.disturbed schedule) source manifest root cursor)
      (approach remote source manifest root cursor) := by
  apply (load_shadows schedule source manifest root cursor).bind
  intro loader
  apply (announce_shadows schedule loader).bind
  intro control
  exact Shadows.pure _

/-- Faults may keep a session from its first word, and change nothing about those that come to it. -/
theorem approach_disturbed (state : τ) {loader : Loader} {control : ControlBlock}
    (reached : (approach (remote.disturbed schedule) source manifest root cursor
      (node, state)).result = .ok (loader, control)) :
    loader.controlBlock = node.memory.controlBlockAddress ∧
      ∃ block, Bootable node source manifest root cursor block ∧
        node.Took (frontWrites node source manifest root cursor block)
          (approach (remote.disturbed schedule) source manifest root cursor (node, state)).node.1 := by
  rcases (approach_shadows source manifest root cursor schedule).follows node state with
    agrees | broken
  · have calm := agrees.result.symm.trans reached
    rcases approach_cases node source manifest root cursor with
      ⟨block, there, found, bootable, own, returned⟩ | ⟨_, stop, failed⟩
    · rw [returned.result] at calm
      cases calm
      rw [agrees.node]
      exact ⟨own, block, bootable, returned.took⟩
    · rw [failed] at calm
      cases calm
  · obtain ⟨stop, failed⟩ := broken.result
    rw [failed] at reached
    cases reached

/-- A session crashes at a word exactly if it comes to its first word and that lies off a word
boundary.  It has written all files and the descriptor block by then.  Without faults it comes there
if and only if all that it checks is in order.  It does not crash otherwise: no sum overflows for
files, steps and command lines that a host can hold, and no transfer reaches over the last
address. -/
theorem crashes_iff_unaligned {τ : Type} (schedule : Schedule τ) (state : τ) :
    let session := run (remote.disturbed schedule) source manifest root cursor (node, state)
    let controlBlock := node.memory.controlBlockAddress
    ((∃ address, session.result = .error (.crash (.misaligned address))) ↔
      controlBlock % 4 ≠ 0 ∧ ∃ reached, (approach (remote.disturbed schedule) source manifest root
        cursor (node, state)).result = .ok reached) ∧
    (∀ crash, session.result = .error (.crash crash) →
      crash = .sumOverflow ∧ ¬ Holdable source manifest root ∨
        crash = .misaligned controlBlock ∧
          ∃ block, Bootable node source manifest root cursor block ∧
            node.Took (frontWrites node source manifest root cursor block) session.node.1) ∧
    ((∃ address, (run remote source manifest root cursor node).result =
        .error (.crash (.misaligned address))) ↔
      controlBlock % 4 ≠ 0 ∧ ∃ block, Bootable node source manifest root cursor block) ∧
    ∀ beyond : Remote (Node × τ),
      run ((remote.disturbed schedule).below beyond) source manifest root cursor (node, state) =
        session := by
  intro session controlBlock
  have smooth : (remote.disturbed schedule).CrashesIn fun _ => False :=
    disturbed_crashes_in node_never_crashes schedule
  refine ⟨⟨?_, ?_⟩, ?_, crashes_undisturbed_iff node source manifest root cursor, ?_⟩
  · rintro ⟨address, crashed⟩
    obtain ⟨loader, control, reached, unaligned⟩ := unaligned_of_misaligned smooth crashed
    rw [(approach_disturbed node source manifest root cursor schedule state reached).1] at unaligned
    exact ⟨unaligned, _, reached⟩
  · rintro ⟨unaligned, ⟨loader, control⟩, reached⟩
    have own := (approach_disturbed node source manifest root cursor schedule state reached).1
    rw [show controlBlock = loader.controlBlock from own.symm] at unaligned
    exact ⟨_, (run_of_unaligned reached unaligned).1⟩
  · intro crash crashed
    rcases unaligned_of_crash smooth crashed with
      overflow | ⟨loader, control, reached, unaligned⟩
    · exact Or.inl overflow
    have left := run_of_unaligned reached unaligned
    obtain ⟨own, block, bootable, took⟩ :=
      approach_disturbed node source manifest root cursor schedule state reached
    rw [crashed, own] at left
    rw [← left.2] at took
    exact Or.inr ⟨by cases left.1; rfl, block, bootable, took⟩
  · intro beyond
    rw [run_below]

end InMemory

theorem holdable_two_files : Holdable twoFiles (.ofString "a.conf") (.ofString "/boot") := by
  have parsed : (Manifest.parse twoFiles (.ofString "a.conf") (.ofString "/boot")).result =
      .ok [.load (.ofString "/boot/k") "k one".toList, .address 0x200000,
        .load (.ofString "/boot/m") "m".toList] :=
    ok_of_to_option (by decide +kernel)
  constructor
  · intro file payload read
    have small : ∀ entry ∈ (MemoryFiles.ofList [
        (.ofString "/boot/a.conf", Utf8.encode "load k one\naddr 200000\nload m\n".toList),
        (.ofString "/boot/k", [1, 2, 3]), (.ofString "/boot/m", [4])]).entries,
        entry.2.length < 0x8000000000000000 := by
      decide +kernel
    simp only [twoFiles, MemoryFiles.source, MemoryFiles.read] at read
    split at read
    · next stored found =>
      cases read
      obtain ⟨before, behind, split, _⟩ := List.lookup_eq_some_iff.mp found
      exact small (_, payload) (split ▸ List.mem_append_right before List.mem_cons_self)
    · cases read
  · intro entries read
    rw [parsed] at read
    cases read
    decide
  · intro entries read file commandLine listed
    rw [parsed] at read
    cases read
    simp only [List.mem_cons, Manifest.Entry.load.injEq, reduceCtorEq, List.not_mem_nil,
      or_false, false_or] at listed
    rcases listed with ⟨_, rfl⟩ | ⟨_, rfl⟩ <;> decide

theorem two_files_crash :
    (run (remote.disturbed undisturbed) twoFiles (.ofString "a.conf") (.ofString "/boot") 0x1000000
      (withAgent 0x9f001, ())).result = .error (.crash (.misaligned 0x9f001)) :=
  crash_eq_some_iff.mp (by decide +kernel)

/-- An agent that publishes an odd pointer: the session crashes with the files in place. -/
theorem odd_pointer_crashes :
    let session := run (remote.disturbed undisturbed) twoFiles (.ofString "a.conf")
      (.ofString "/boot") 0x1000000 (withAgent 0x9f001, ())
    session.result = .error (.crash (.misaligned 0x9f001)) ∧
      (session.node.1.writes.take 2 = [⟨0x1000000, [1, 2, 3]⟩, ⟨0x200000, [4]⟩] ∧
        session.node.1.writes.length = 3) ∧
      (∃ block, Bootable (withAgent 0x9f001) twoFiles (.ofString "a.conf") (.ofString "/boot")
        0x1000000 block) ∧
      ∀ beyond : Remote (Node × Unit),
        run ((remote.disturbed undisturbed).below beyond) twoFiles (.ofString "a.conf")
          (.ofString "/boot") 0x1000000 (withAgent 0x9f001, ()) = session := by
  have settled := crashes_iff_unaligned (withAgent 0x9f001) twoFiles (.ofString "a.conf")
    (.ofString "/boot") 0x1000000 undisturbed ()
  rcases settled.2.1 _ two_files_crash with ⟨_, unheld⟩ | ⟨_, block, bootable, _⟩
  · exact absurd holdable_two_files unheld
  · exact ⟨two_files_crash, by decide +kernel, ⟨block, bootable⟩, settled.2.2.2⟩

/-- Sessions do not always end with a report or a fault. -/
theorem sessions_not_always_end :
    ¬ ∀ (node : Node) (source : FileSource) (manifest root : Path) (cursor : Nat)
        (schedule : Schedule Unit),
      let session := run (remote.disturbed schedule) source manifest root cursor (node, ())
      (∃ report, session.result = .ok report) ∨ ∃ fault, session.result = .error (.fault fault) := by
  intro always
  have ended := always (withAgent 0x9f001) twoFiles (.ofString "a.conf") (.ofString "/boot")
    0x1000000 undisturbed
  simp only [two_files_crash] at ended
  rcases ended with ⟨report, booted⟩ | ⟨fault, failed⟩
  · cases booted
  · cases failed

end RemoteBoot.Boot
