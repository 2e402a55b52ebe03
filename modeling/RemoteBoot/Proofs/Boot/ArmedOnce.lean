import RemoteBoot.Proofs.Boot.ReadBack

/-!
# A node is armed at most once

No write of a session that succeeds comes near the configuration ROM: every file, the descriptor
block and the control block end below four gigabytes.  So the node still shows the agent and the
same control block behind the session, and the count that was written last is not zero.  Whoever
comes then finds the modules listed and is refused before the first write, however often.
-/

set_option autoImplicit false

namespace RemoteBoot.Boot

open Multiboot Node

structure Session where
  source : FileSource
  manifest : Path
  root : Path
  cursor : Nat

def Session.run (session : Session) : Engine Node Report :=
  Boot.run remote session.source session.manifest session.root session.cursor

/-- The node behind sessions that come one after another, however each of them ends. -/
def runAll : List Session → Node → Node
  | [], node => node
  | session :: later, node => runAll later (session.run node).node

/-- An agent answers from the node and its control block lists modules. -/
structure Lists (node : Node) (count : UInt32) : Prop where
  present : node.absent = false
  vendor : Rom.entryValue (node.memory.quadlet Rom.vendorIndex) = Rom.agentVendor
  model : Rom.entryValue (node.memory.quadlet Rom.modelIndex) = Rom.agentModel
  published : node.memory.controlBlockAddress ≠ 0
  listed : node.memory.peekWord (node.memory.controlBlockAddress + 20) = count
  some : count ≠ 0

theorem Lists.of_took {before after : Node} {count : UInt32} (lists : Lists before count)
    (took : before.Took [] after) : Lists after count := by
  have same := took.unchanged
  refine ⟨took.present lists.present, ?_, ?_, ?_, ?_, lists.some⟩ <;> rw [same]
  · exact lists.vendor
  · exact lists.model
  · exact lists.published
  · exact lists.listed

section Refused

variable {node : Node} {count : UInt32}

/-- From this node the action fails with a fault, and no write is taken. -/
structure Fails {α : Type} (action : Engine Node α) (node : Node) (fault : Fault) : Prop where
  result : (action node).result = .error (.fault fault)
  took : node.Took [] (action node).node

theorem fails_fail {α : Type} (fault : Fault) (node : Node) :
    Fails (Engine.fail fault : Engine Node α) node fault :=
  ⟨rfl, Took.refl node⟩

theorem Fails.bind {α β : Type} {first : Engine Node α} {fault : Fault}
    (next : α → Engine Node β) (failed : Fails first node fault) :
    Fails (first >>= next) node fault := by
  have rest := Engine.bind_of_error next failed.result
  constructor
  · exact rest.1
  · rw [rest.2]
    exact failed.took

theorem returns_bind_fails {α β : Type} {first : Engine Node α} {next : α → Engine Node β}
    {value : α} {fault : Fault} (begun : Returns first node value [])
    (continued : ∀ middle : Node, node.Took [] middle → Fails (next value) middle fault) :
    Fails (first >>= next) node fault := by
  have rest := Engine.bind_of_ok next begun.result
  have failed := continued _ begun.took
  constructor
  · rw [rest.1, failed.result]
  · rw [rest.2]
    exact begun.took.trans failed.took

theorem begin_refused (lists : Lists node count) (cursor : Nat) :
    Fails (Loader.begin remote node.memory.controlBlockAddress cursor) node
      (.alreadyBooted count) := by
  rw [Loader.begin, if_neg lists.published]
  apply returns_bind_fails (returns_fetch_control_block lists.present _)
  intro fetched tookNothing
  have modules : (node.memory.controlBlock node.memory.controlBlockAddress).modsCount = count :=
    lists.listed
  rw [modules, if_pos lists.some]
  exact fails_fail _ fetched

theorem prepare_refused (lists : Lists node count) (cursor : Nat) :
    Fails (prepare remote cursor) node (.alreadyBooted count) := by
  apply returns_bind_fails (returns_discover lists.present)
  intro probed tookProbe
  have found := lists.of_took tookProbe
  rw [lists.vendor, lists.model]
  apply returns_bind_fails (returns_control_block_address found.present)
  intro addressed tookAddress
  have found := found.of_took tookAddress
  apply returns_bind_fails (returns_note _ _ _ addressed)
  intro noted tookNote
  rw [← tookAddress.unchanged, ← tookNote.unchanged]
  exact begin_refused (found.of_took tookNote) cursor

theorem run_refused (lists : Lists node count) (session : Session) :
    Fails session.run node (.alreadyBooted count) := by
  rw [Session.run, run_eq_load_arm]
  exact ((prepare_refused lists session.cursor).bind _).bind _

/-- Sessions that find modules listed change nothing, so the next one finds them listed too. -/
theorem run_all_refused (lists : Lists node count) (sessions : List Session) :
    node.Took [] (runAll sessions node) := by
  induction sessions generalizing node with
  | nil => exact Took.refl node
  | cons session later ih =>
      have refused := run_refused lists session
      exact refused.took.trans (ih (lists.of_took refused.took))

end Refused

/-- No write of a session goes beyond this address. -/
def fourGigabytes : Nat := 0x100000000

theorem four_gigabytes_below_rom (index : Nat) : fourGigabytes ≤ Rom.quadletAddress index := by
  rw [fourGigabytes, Rom.quadletAddress, Rom.base]
  omega

theorem peek_replay_below (memory : Memory) {writes : List Write} {limit address : Nat}
    (below : ∀ write ∈ writes, write.address + write.bytes.length ≤ limit)
    (above : limit ≤ address) (length : Nat) :
    (memory.replay writes).peek address length = memory.peek address length := by
  apply Memory.peek_congr
  intro offset _
  apply memory.byte_at_replay_outside
  intro write member
  have ends := below write member
  rw [Write.covers_eq_false_iff]
  omega

section Booted

variable {node : Node} {source : FileSource} {manifest root : Path} {cursor : Nat}

/-- The plan and the block were checked against 32 bits, and the control block lies in front of the
block. -/
theorem trace_below_four_gigabytes {placements : List Placement} {controlBlock : Nat}
    {modules : List Module} {block : Bytes}
    (sound : ∀ placement ∈ placements, placement.Sound source)
    (made : Module.block (controlBlock + 0x4000) modules = .ok block) (memory : Memory) :
    ∀ write ∈ trace source placements memory controlBlock block,
      write.address + write.bytes.length ≤ fourGigabytes := by
  have fits := Module.block_fits made
  have length := Word.length_bytes
  intro write member
  rw [fourGigabytes]
  simp only [trace, List.mem_append, List.mem_map, List.mem_cons, List.not_mem_nil,
    or_false] at member
  rcases member with ⟨placement, placed, rfl⟩ | rfl | rfl | rfl | rfl
  · exact Nat.le_of_lt (sound placement placed).fits
  all_goals
    simp only [length]
    omega

theorem quadlet_of_readied {after : Loader} {block : Bytes}
    (readied : Readies node source manifest root cursor after block) (index : Nat) :
    (run remote source manifest root cursor node).node.memory.quadlet index =
      node.memory.quadlet index := by
  have returned := run_returns node source manifest root cursor readied
  rw [trace_of_readies readied] at returned
  have below := trace_below_four_gigabytes readied.sound readied.block_made node.memory
  rw [Memory.quadlet, Memory.quadlet, returned.took.memory,
    peek_replay_below _ below (four_gigabytes_below_rom index)]

theorem count_of_readied {after : Loader} {block : Bytes}
    (readied : Readies node source manifest root cursor after block) :
    (run remote source manifest root cursor node).node.memory.peekWord (after.controlBlock + 20) =
      UInt32.ofNat after.modules.length := by
  have returned := run_returns node source manifest root cursor readied
  rw [returned.took.memory, List.append_assoc, Memory.replay_append, Loader.replay_arming]
  exact Loader.count_of_armed _ _ _ _

theorem lists_of_readied {after : Loader} {block : Bytes}
    (readied : Readies node source manifest root cursor after block) :
    Lists (run remote source manifest root cursor node).node
      (UInt32.ofNat after.modules.length) := by
  have returned := run_returns node source manifest root cursor readied
  have awaits := readied.awaits
  have kept := quadlet_of_readied readied
  have address : (run remote source manifest root cursor node).node.memory.controlBlockAddress =
      node.memory.controlBlockAddress := congrArg UInt32.toNat (kept Rom.controlBlockIndex)
  constructor
  · exact returned.took.present awaits.present
  · rw [kept]
    exact awaits.vendor
  · rw [kept]
    exact awaits.model
  · rw [address]
    exact awaits.published
  · rw [address, ← readied.controlBlock]
    exact count_of_readied readied
  · intro zero
    have number := to_nat_of_fits (Loader.count_fits readied.made)
    rw [zero] at number
    exact modules_ne_nil readied (List.eq_nil_of_length_eq_zero number.symm)

/-- Behind a session that succeeds, and behind any sessions that were tried since, every further
session finds the modules of the first one listed and leaves the node as it is. -/
theorem armed_node_refuses {report : Report}
    (booted : (run remote source manifest root cursor node).result = .ok report)
    (tried : List Session) (further : Session) :
    let armed := (run remote source manifest root cursor node).node
    let count := UInt32.ofNat report.modules.length
    let left := further.run (runAll tried armed)
    count.toNat = report.modules.length ∧
      left.result = .error (.fault (.alreadyBooted count)) ∧
      left.node.memory = armed.memory ∧ left.node.writes = armed.writes := by
  intro armed count left
  obtain ⟨after, block, readied, rfl⟩ := readies_of_ok node source manifest root cursor booted
  have lists : Lists armed count := lists_of_readied readied
  have since := run_all_refused lists tried
  have refused := run_refused (lists.of_took since) further
  have still : armed.Took [] left.node := since.trans refused.took
  refine ⟨to_nat_of_fits (Loader.count_fits readied.made), refused.result, still.unchanged, ?_⟩
  rw [still.log, List.append_nil]

end Booted

/-- The same manifest at another address, and a manifest that is not there. -/
def latecomers : List Session :=
  [⟨twoFiles, .ofString "a.conf", .ofString "/boot", 0x400000⟩,
    ⟨twoFiles, .ofString "absent.conf", .ofString "/boot", 0⟩]

theorem two_files_refuse_latecomers :
    (run remote twoFiles (.ofString "a.conf") (.ofString "/boot") 0x1000000
        (withAgent 0x9f000)).result = .ok twoModules ∧
      ∀ further : Session,
        (further.run (runAll latecomers (run remote twoFiles (.ofString "a.conf")
          (.ofString "/boot") 0x1000000 (withAgent 0x9f000)).node)).result =
            .error (.fault (.alreadyBooted 2)) :=
  ⟨two_files_boot, fun further => (armed_node_refuses two_files_boot latecomers further).2.1⟩

end RemoteBoot.Boot
