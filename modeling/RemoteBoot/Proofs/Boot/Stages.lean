import RemoteBoot.Proofs.Boot.Placement
import RemoteBoot.Proofs.Multiboot.Arming

/-!
# The stages of a session

A session prepares, reads the manifest, places the files, publishes them and gives the go signal.
`load` is the session in front of arming and `ready` the session in front of the go signal.  On a
node in memory every stage either returns with known writes or stops with a part of them.
-/

set_option autoImplicit false

namespace RemoteBoot.Boot

open Multiboot Node

section Stages

variable {σ : Type} (remote : Remote σ) (source : FileSource) (manifest root : Path) (cursor : Nat)

/-- A session in front of arming. -/
def load : Engine σ Loader := do
  let loader ← prepare remote cursor
  let entries ← Engine.ofNoted (Manifest.parse source manifest root)
  Engine.note .debug .session (Numeral.decimal entries.length ++ " manifest entries")
  placeAll remote (fun _ => source) loader entries

/-- A session in front of the go signal. -/
def ready : Engine σ Loader := do
  let loader ← load remote source manifest root cursor
  loader.publish remote
  pure loader

def finish (loader : Loader) : Engine σ Report := do
  let armed ← loader.signal remote
  pure ⟨armed.controlBlock, armed.modules⟩

theorem run_eq_load_arm :
    run remote source manifest root cursor = (do
      let loader ← load remote source manifest root cursor
      let armed ← loader.arm remote
      pure ⟨armed.controlBlock, armed.modules⟩) := by
  simp only [run, runLive, load, bind_assoc, Engine.look_bind_const]

theorem run_eq_ready_finish :
    run remote source manifest root cursor = (do
      let loader ← ready remote source manifest root cursor
      finish remote loader) := by
  simp only [run_eq_load_arm, ready, finish, Loader.arm_eq_publish_signal, bind_assoc, pure_bind]

end Stages

/-- The node is there, carries the agent's identity and published a control block that lists no
modules. -/
structure Awaits (node : Node) : Prop where
  present : node.absent = false
  vendor : Rom.entryValue (node.memory.quadlet Rom.vendorIndex) = Rom.agentVendor
  model : Rom.entryValue (node.memory.quadlet Rom.modelIndex) = Rom.agentModel
  published : node.memory.controlBlockAddress ≠ 0
  unbooted : node.memory.peekWord (node.memory.controlBlockAddress + 20) = 0

theorem begin_returns {node : Node} (present : node.absent = false) {controlBlock : Nat}
    (published : controlBlock ≠ 0) (unbooted : node.memory.peekWord (controlBlock + 20) = 0)
    (cursor : Nat) :
    Returns (Loader.begin remote controlBlock cursor) node ⟨controlBlock, .idle, cursor, []⟩ [] := by
  rw [Loader.begin, if_neg published]
  apply (returns_fetch_control_block present _).bind
  intro fetched tookNothing
  rw [if_neg (fun listed => listed unbooted)]
  exact returns_pure _ fetched

theorem begin_stops {node : Node} (present : node.absent = false) {controlBlock : Nat}
    (unready : controlBlock = 0 ∨ node.memory.peekWord (controlBlock + 20) ≠ 0) (cursor : Nat) :
    Stops (Loader.begin remote controlBlock cursor) node [] := by
  rw [Loader.begin]
  by_cases missing : controlBlock = 0
  · rw [if_pos missing]
    exact stops_fail _ node
  · have listed := unready.resolve_left missing
    rw [if_neg missing]
    apply (returns_fetch_control_block present _).bind_stops
    intro fetched tookNothing
    rw [Memory.controlBlock, if_pos listed]
    exact stops_fail _ fetched

theorem prepare_returns {node : Node} (awaits : Awaits node) (cursor : Nat) :
    Returns (prepare remote cursor) node
      ⟨node.memory.controlBlockAddress, .idle, cursor, []⟩ [] := by
  apply (returns_discover awaits.present).bind
  intro probed tookProbe
  have there := tookProbe.present awaits.present
  rw [awaits.vendor, awaits.model, ← tookProbe.unchanged]
  apply (returns_control_block_address there).bind
  intro addressed tookAddress
  have there := tookAddress.present there
  apply (returns_note _ _ _ addressed).bind
  intro noted tookNote
  have there := tookNote.present there
  have same : noted.memory = node.memory := by
    rw [tookNote.unchanged, tookAddress.unchanged, tookProbe.unchanged]
  rw [tookProbe.unchanged]
  apply begin_returns there awaits.published
  rw [same]
  exact awaits.unbooted

/-- Whatever is missing is found before the first write. -/
theorem prepare_stops {node : Node} (unready : ¬ Awaits node) (cursor : Nat) :
    Stops (prepare remote cursor) node [] := by
  cases present : node.absent with
  | true =>
      apply (returns_discover_absent present).bind_stops
      intro probed tookProbe
      exact (stops_fail _ probed).bind _
  | false =>
      apply (returns_discover present).bind_stops
      intro probed tookProbe
      have there := tookProbe.present present
      by_cases agent : Rom.entryValue (node.memory.quadlet Rom.vendorIndex) = Rom.agentVendor ∧
          Rom.entryValue (node.memory.quadlet Rom.modelIndex) = Rom.agentModel
      · rw [agent.1, agent.2]
        apply (returns_control_block_address there).bind_stops
        intro addressed tookAddress
        have there := tookAddress.present there
        apply (returns_note _ _ _ addressed).bind_stops
        intro noted tookNote
        have there := tookNote.present there
        have same : noted.memory = node.memory := by
          rw [tookNote.unchanged, tookAddress.unchanged, tookProbe.unchanged]
        apply begin_stops there
        rw [same, tookProbe.unchanged]
        by_cases missing : node.memory.controlBlockAddress = 0
        · exact Or.inl missing
        · exact Or.inr fun unbooted => unready ⟨present, agent.1, agent.2, missing, unbooted⟩
      · have foreign : (⟨Rom.entryValue (node.memory.quadlet Rom.vendorIndex),
            Rom.entryValue (node.memory.quadlet Rom.modelIndex)⟩ : Rom.Discovery).isAgent =
              false := by
          simp only [Rom.Discovery.isAgent, Bool.and_eq_false_iff, beq_eq_false_iff_ne]
          exact Decidable.not_and_iff_not_or_not.mp agent
        rw [Rom.Discovery.ensureAgent, foreign]
        exact (stops_fail _ probed).bind _

/-- The places of the files of a manifest; none if it cannot be read. -/
def plan (source : FileSource) (manifest root : Path) (cursor : Nat) : List Placement :=
  match (Manifest.parse source manifest root).result with
  | .ok entries => placements source cursor [] entries
  | .error _ => []

theorem plan_of_parsed {source : FileSource} {manifest root : Path} {entries : List Manifest.Entry}
    (parsed : (Manifest.parse source manifest root).result = .ok entries) (cursor : Nat) :
    plan source manifest root cursor = placements source cursor [] entries := by
  rw [plan, parsed]

section Cases

variable (node : Node) (source : FileSource) (manifest root : Path) (cursor : Nat)

/-- The node awaits a boot, and the manifest can be read and all its files have their places. -/
structure Placeable : Prop where
  awaits : Awaits node
  parsed : ∃ entries, (Manifest.parse source manifest root).result = .ok entries
  sound : ∀ placement ∈ plan source manifest root cursor, placement.Sound source

structure Loads (after : Loader) : Prop where
  awaits : Awaits node
  parsed : ∃ entries, (Manifest.parse source manifest root).result = .ok entries
  sound : ∀ placement ∈ plan source manifest root cursor, placement.Sound source
  controlBlock : after.controlBlock = node.memory.controlBlockAddress
  modules : after.modules =
    (plan source manifest root cursor).map (Placement.module source)
  isOpen : after.Open
  returns : Returns (load remote source manifest root cursor) node after
    ((plan source manifest root cursor).map (Placement.write source))

theorem load_cases :
    (∃ after, Loads node source manifest root cursor after) ∨
      ¬ Placeable node source manifest root cursor ∧
        ∃ placed, placed <+: plan source manifest root cursor ∧
          Stops (load remote source manifest root cursor) node
            (placed.map (Placement.write source)) := by
  by_cases awaits : Awaits node
  · have prepared := prepare_returns awaits cursor
    cases parsed : (Manifest.parse source manifest root).result with
    | error stop =>
        refine Or.inr ⟨?_, [], List.nil_prefix, prepared.then_stops ?_⟩
        · intro placeable
          obtain ⟨entries, read⟩ := placeable.parsed
          rw [parsed] at read
          cases read
        · exact (stops_of_noted parsed _).bind _
    | ok entries =>
        have known := plan_of_parsed parsed cursor
        have there := prepared.took.present awaits.present
        have start : (⟨node.memory.controlBlockAddress, .idle, cursor, []⟩ : Loader).cursor =
            nextStart source cursor [] := rfl
        rcases place_all_cases there (Loader.open_begin _ _) entries start with
          ⟨after, rest⟩ | ⟨placed, rest⟩
        · rw [← known] at rest
          refine Or.inl ⟨after, awaits, ⟨entries, parsed⟩, rest.sound, rest.placed.controlBlock,
            rest.placed.modules, rest.placed.isOpen, prepared.then_returns ?_⟩
          exact (returns_of_noted parsed _).then_returns
            ((returns_note _ _ _ _).then_returns rest.returns)
        · rw [← known] at rest
          obtain ⟨lost, listed, unsound⟩ := rest.unsound
          refine Or.inr ⟨fun placeable => unsound (placeable.sound lost listed), placed, rest.front,
            prepared.then_stops ?_⟩
          exact (returns_of_noted parsed _).then_stops
            ((returns_note _ _ _ _).then_stops rest.stops)
  · exact Or.inr ⟨fun placeable => awaits placeable.awaits, [], List.nil_prefix,
      (prepare_stops awaits cursor).bind _⟩

/-- A session that comes to the go signal. -/
structure Readies (after : Loader) (block : Bytes) : Prop extends
    Loads node source manifest root cursor after where
  pushing : after.phase = .pushing
  made : after.descriptorBlock = .ok block
  aligned : after.controlBlock % 4 = 0
  readies : Returns (ready remote source manifest root cursor) node after
    ((plan source manifest root cursor).map (Placement.write source) ++
      after.publication
        (node.memory.replay ((plan source manifest root cursor).map (Placement.write source))) block)

theorem Readies.block_made {node : Node} {source : FileSource} {manifest root : Path} {cursor : Nat}
    {after : Loader} {block : Bytes}
    (readied : Readies node source manifest root cursor after block) :
    Module.block (after.controlBlock + 0x4000) after.modules = .ok block :=
  (Loader.descriptor_block_ok readied.made).2

/-- A session that does not come to the go signal wrote files from the front of its plan, and the
descriptor block at most behind all of them. -/
theorem ready_cases :
    (∃ after block, Readies node source manifest root cursor after block) ∨
      ∃ issued block, issued <+: (plan source manifest root cursor).map (Placement.write source) ++
          [⟨node.memory.controlBlockAddress + 0x4000, block⟩] ∧
        Stops (ready remote source manifest root cursor) node issued := by
  rcases load_cases node source manifest root cursor with
    ⟨after, loads⟩ | ⟨_, placed, front, stops⟩
  · have there := loads.returns.took.present loads.awaits.present
    rcases Loader.publish_cases there after with
      ⟨block, pushing, made, aligned, published⟩ | ⟨rest, block, front, stopped⟩
    · refine Or.inl ⟨after, block, loads, pushing, made, aligned, ?_⟩
      rw [← loads.returns.took.memory]
      apply loads.returns.then_returns
      rw [← List.append_nil (after.publication _ _)]
      exact published.then_returns (returns_pure _ _)
    · refine Or.inr ⟨_, block, ?_, loads.returns.then_stops (stopped.bind _)⟩
      rw [loads.controlBlock] at front
      exact (List.prefix_append_right_inj _).mpr front
  · refine Or.inr ⟨_, [], ?_, stops.bind _⟩
    exact (front.map _).trans (List.prefix_append _ _)

theorem run_returns {after : Loader} {block : Bytes}
    (readied : Readies node source manifest root cursor after block) :
    Returns (run remote source manifest root cursor) node ⟨after.controlBlock, after.modules⟩
      ((plan source manifest root cursor).map (Placement.write source) ++
        after.publication
          (node.memory.replay ((plan source manifest root cursor).map (Placement.write source)))
          block ++ [after.goSignal]) := by
  have there := readied.readies.took.present readied.awaits.present
  rw [run_eq_ready_finish]
  apply readied.readies.then_returns
  rw [← List.append_nil [after.goSignal]]
  exact (Loader.signal_returns there readied.aligned).then_returns (returns_pure _ _)

theorem readies_of_ok {report : Report}
    (booted : (run remote source manifest root cursor node).result = .ok report) :
    ∃ after block, Readies node source manifest root cursor after block ∧
      report = ⟨after.controlBlock, after.modules⟩ := by
  rcases ready_cases node source manifest root cursor with
    ⟨after, block, readied⟩ | ⟨issued, block, _, stopped⟩
  · refine ⟨after, block, readied, ?_⟩
    have returned := (run_returns node source manifest root cursor readied).result
    rw [booted] at returned
    exact Except.ok.inj returned
  · rw [run_eq_ready_finish] at booted
    obtain ⟨stop, failed⟩ := (stopped.bind _).result
    rw [booted] at failed
    cases failed

end Cases

end RemoteBoot.Boot
