import RemoteBoot.Multiboot.ControlBlock
import RemoteBoot.Proofs.Node.Replay
import RemoteBoot.Proofs.Remote.Actions
import RemoteBoot.Rom.Discovery

/-!
# Transfers with a node in memory

What the readers of the configuration ROM and of the control block return on a node that is there,
as equations on its memory.  An action that only reads takes no write, whatever it returns.
-/

set_option autoImplicit false

namespace RemoteBoot

open Multiboot

variable {α β : Type}

namespace Memory

def quadlet (memory : Memory) (index : Nat) : UInt32 :=
  Word.ofQuadletBytes (memory.peek (Rom.quadletAddress index) 4)

/-- The address of the control block that the ROM gives. -/
def controlBlockAddress (memory : Memory) : Nat :=
  (memory.quadlet Rom.controlBlockIndex).toNat

def controlBlock (memory : Memory) (address : Nat) : ControlBlock where
  flags := memory.peekWord address
  memLower := memory.peekWord (address + 4)
  memUpper := memory.peekWord (address + 8)
  bootDevice := memory.peekWord (address + 12)
  commandLine := memory.peekWord (address + 16)
  modsCount := memory.peekWord (address + 20)
  modsAddress := memory.peekWord (address + 24)

theorem drop_peek (memory : Memory) (address length count : Nat) :
    (memory.peek address length).drop count = memory.peek (address + count) (length - count) := by
  apply List.ext_getElem?
  intro offset
  by_cases inside : count + offset < length
  · have rest : offset < length - count := by omega
    simp [peek, List.getElem?_drop, List.getElem?_range inside, List.getElem?_range rest,
      Nat.add_assoc]
  · rw [List.getElem?_eq_none, List.getElem?_eq_none]
    · rw [length_peek]
      omega
    · rw [List.length_drop, length_peek]
      omega

theorem take_peek (memory : Memory) (address : Nat) {length count : Nat} (within : count ≤ length) :
    (memory.peek address length).take count = memory.peek address count := by
  rw [peek, peek, ← List.map_take, List.take_range, Nat.min_eq_left within]

theorem of_bytes_peek (memory : Memory) (address : Nat) {length : Nat} (within : 4 ≤ length) :
    Word.ofBytes (memory.peek address length) = memory.peekWord address := by
  rw [peekWord, Word.ofBytes, Word.ofBytes, memory.take_peek address within,
    memory.take_peek address (Nat.le_refl 4)]

theorem of_bytes_peek_control_block (memory : Memory) (address : Nat) :
    ControlBlock.ofBytes? (memory.peek address ControlBlock.size) =
      some (memory.controlBlock address) := by
  have whole : ¬ (memory.peek address ControlBlock.size).length < ControlBlock.size := by
    rw [length_peek]
    exact Nat.lt_irrefl ControlBlock.size
  rw [ControlBlock.ofBytes?, if_neg whole]
  simp (disch := decide) only [ControlBlock.size, ControlBlock.modsCountOffset,
    ControlBlock.modsAddressOffset, drop_peek, of_bytes_peek, controlBlock]

end Memory

namespace Node

theorem fetch_present {node : Node} (present : node.absent = false) (address length : Nat) :
    remote.fetch address length node =
      ⟨.ok (node.memory.peek address length), { node with reads := node.reads + 1 }, []⟩ := by
  simp [Remote.fetch, Transfer.toEngine, remote, read, present]

theorem fetch_absent {node : Node} (gone : node.absent = true) (address length : Nat) :
    remote.fetch address length node =
      ⟨.error (.fault (absence "read" address)), node, []⟩ := by
  simp [Remote.fetch, Transfer.toEngine, remote, read, gone]

theorem store_present {node : Node} (present : node.absent = false) (address : Nat)
    (bytes : Bytes) :
    remote.store address bytes node =
      ⟨.ok (), { node.seed address bytes with writes := node.writes ++ [⟨address, bytes⟩] },
        []⟩ := by
  simp [Remote.store, Transfer.toEngine, remote, write, present]

theorem store_absent {node : Node} (gone : node.absent = true) (address : Nat) (bytes : Bytes) :
    remote.store address bytes node =
      ⟨.error (.fault (absence "write" address)), node, []⟩ := by
  simp [Remote.store, Transfer.toEngine, remote, write, gone]

theorem read_quadlet_present {node : Node} (present : node.absent = false) (index : Nat) :
    Rom.readQuadlet remote index node =
      ⟨.ok (node.memory.quadlet index), { node with reads := node.reads + 1 }, []⟩ := by
  rw [Rom.readQuadlet, Engine.bind_apply, fetch_present present]
  simp only [Memory.length_peek, if_true, Engine.pure_apply, List.append_nil]
  rfl

theorem fetch_control_block_present {node : Node} (present : node.absent = false)
    (address : Nat) :
    ControlBlock.fetch remote address node =
      ⟨.ok (node.memory.controlBlock address), { node with reads := node.reads + 1 }, []⟩ := by
  rw [ControlBlock.fetch, Engine.bind_apply, fetch_present present]
  simp only [Memory.of_bytes_peek_control_block, Engine.pure_apply, List.append_nil]

/-- From this node the action returns a value, and the node takes writes. -/
structure Returns (action : Engine Node α) (node : Node) (value : α) (writes : List Write) :
    Prop where
  result : (action node).result = .ok value
  took : node.Took writes (action node).node

/-- From this node the action stops, and the node has taken writes by then. -/
structure Stops (action : Engine Node α) (node : Node) (writes : List Write) : Prop where
  result : ∃ stop, (action node).result = .error stop
  took : node.Took writes (action node).node

theorem Returns.then_returns {first : Engine Node α} {next : α → Engine Node β} {node : Node}
    {value : α} {last : β} {earlier later : List Write} (begun : Returns first node value earlier)
    (continued : Returns (next value) (first node).node last later) :
    Returns (first >>= next) node last (earlier ++ later) := by
  have rest := Engine.bind_of_ok next begun.result
  constructor
  · rw [rest.1, continued.result]
  · rw [rest.2]
    exact begun.took.trans continued.took

theorem Returns.then_stops {first : Engine Node α} {next : α → Engine Node β} {node : Node}
    {value : α} {earlier later : List Write} (begun : Returns first node value earlier)
    (continued : Stops (next value) (first node).node later) :
    Stops (first >>= next) node (earlier ++ later) := by
  have rest := Engine.bind_of_ok next begun.result
  obtain ⟨stop, stopped⟩ := continued.result
  constructor
  · exact ⟨stop, by rw [rest.1, stopped]⟩
  · rw [rest.2]
    exact begun.took.trans continued.took

/-- What follows an action is known from what the node took, whatever it was read for. -/
theorem Returns.bind {first : Engine Node α} {next : α → Engine Node β} {node : Node} {value : α}
    {last : β} {earlier later : List Write} (begun : Returns first node value earlier)
    (continued : ∀ middle : Node, node.Took earlier middle → Returns (next value) middle last later) :
    Returns (first >>= next) node last (earlier ++ later) :=
  begun.then_returns (continued _ begun.took)

theorem Returns.bind_stops {first : Engine Node α} {next : α → Engine Node β} {node : Node}
    {value : α} {earlier later : List Write} (begun : Returns first node value earlier)
    (continued : ∀ middle : Node, node.Took earlier middle → Stops (next value) middle later) :
    Stops (first >>= next) node (earlier ++ later) :=
  begun.then_stops (continued _ begun.took)

theorem Stops.bind {first : Engine Node α} (next : α → Engine Node β) {node : Node}
    {writes : List Write} (stopped : Stops first node writes) :
    Stops (first >>= next) node writes := by
  obtain ⟨stop, error⟩ := stopped.result
  have rest := Engine.bind_of_error next error
  constructor
  · exact ⟨stop, rest.1⟩
  · rw [rest.2]
    exact stopped.took

theorem returns_pure (value : α) (node : Node) : Returns (pure value) node value [] :=
  ⟨rfl, Took.refl node⟩

theorem returns_note (level : Level) (origin : Origin) (text : String) (node : Node) :
    Returns (Engine.note level origin text) node () [] :=
  ⟨rfl, Took.refl node⟩

theorem returns_of_noted {computation : Noted α} {value : α}
    (computed : computation.result = .ok value) (node : Node) :
    Returns (Engine.ofNoted computation) node value [] :=
  ⟨computed, Took.refl node⟩

theorem stops_of_checked {result : Except Stop α} {stop : Stop} (failed : result = .error stop)
    (node : Node) : Stops (Engine.ofChecked result : Engine Node α) node [] :=
  ⟨⟨stop, failed⟩, Took.refl node⟩

theorem stops_of_noted {computation : Noted α} {stop : Stop}
    (stopped : computation.result = .error stop) (node : Node) :
    Stops (Engine.ofNoted computation) node [] :=
  ⟨⟨stop, stopped⟩, Took.refl node⟩

theorem stops_fail (fault : Fault) (node : Node) :
    Stops (Engine.fail fault : Engine Node α) node [] :=
  ⟨⟨.fault fault, rfl⟩, Took.refl node⟩

theorem returns_store {node : Node} (present : node.absent = false) (address : Nat)
    (bytes : Bytes) : Returns (remote.store address bytes) node () [⟨address, bytes⟩] := by
  constructor <;> rw [store_present present]
  exact ⟨rfl, rfl, rfl⟩

theorem returns_store_word {node : Node} (present : node.absent = false) {address : Nat}
    (aligned : address % 4 = 0) (word : UInt32) :
    Returns (remote.storeWord address word) node () [⟨address, Word.bytes word⟩] := by
  rw [Remote.storeWord, if_neg (fun unaligned => unaligned aligned)]
  exact returns_store present address (Word.bytes word)

theorem stops_store_word {address : Nat} (unaligned : address % 4 ≠ 0) (word : UInt32)
    (node : Node) : Stops (remote.storeWord address word) node [] := by
  rw [Remote.storeWord, if_pos unaligned]
  exact ⟨⟨_, rfl⟩, Took.refl node⟩

theorem returns_fetch_control_block {node : Node} (present : node.absent = false)
    (address : Nat) :
    Returns (ControlBlock.fetch remote address) node (node.memory.controlBlock address) [] := by
  constructor <;> rw [fetch_control_block_present present]
  exact ⟨rfl, by simp, rfl⟩

theorem returns_read_quadlet {node : Node} (present : node.absent = false) (index : Nat) :
    Returns (Rom.readQuadlet remote index) node (node.memory.quadlet index) [] := by
  constructor <;> rw [read_quadlet_present present]
  exact ⟨rfl, by simp, rfl⟩

theorem Returns.attempt {action : Engine Node α} {node : Node} {value : α} {writes : List Write}
    (returns : Returns action node value writes) :
    Returns (Engine.attempt action) node (.ok value) writes := by
  constructor <;> simp only [Engine.attempt, returns.result]
  exact returns.took

theorem returns_read_identity {node : Node} (present : node.absent = false) :
    Returns (Rom.readIdentity remote) node
      ⟨Rom.entryValue (node.memory.quadlet Rom.vendorIndex),
        Rom.entryValue (node.memory.quadlet Rom.modelIndex)⟩ [] := by
  apply (returns_read_quadlet present _).bind
  intro vendorRead tookVendor
  have there := tookVendor.present present
  rw [← tookVendor.unchanged]
  apply (returns_read_quadlet there _).bind
  intro modelRead tookModel
  exact returns_pure _ modelRead

theorem returns_discover {node : Node} (present : node.absent = false) :
    Returns (Rom.discover remote) node
      ⟨Rom.entryValue (node.memory.quadlet Rom.vendorIndex),
        Rom.entryValue (node.memory.quadlet Rom.modelIndex)⟩ [] := by
  apply (returns_read_identity present).attempt.bind
  intro middle took
  exact returns_pure _ middle

theorem returns_control_block_address {node : Node} (present : node.absent = false) :
    Returns (Rom.controlBlockAddress remote) node node.memory.controlBlockAddress [] := by
  apply (returns_read_quadlet present _).bind
  intro middle took
  exact returns_pure _ middle

/-- A node that does not answer is taken for one without an agent. -/
theorem returns_discover_absent {node : Node} (gone : node.absent = true) :
    Returns (Rom.discover remote) node ⟨0, 0⟩ [] := by
  have failed : (Rom.readIdentity remote node) =
      ⟨.error (.fault (absence "read" (Rom.quadletAddress Rom.vendorIndex))), node, []⟩ := by
    rw [Rom.readIdentity, Engine.bind_apply, Rom.readQuadlet, Engine.bind_apply, fetch_absent gone]
  have attempted : Returns (Engine.attempt (Rom.readIdentity remote)) node
      (.error (absence "read" (Rom.quadletAddress Rom.vendorIndex))) [] := by
    constructor <;> simp only [Engine.attempt, failed]
    exact Took.refl node
  apply attempted.bind
  intro middle took
  apply (returns_note _ _ _ middle).bind
  intro noted tookNote
  exact returns_pure _ noted

end Node
end RemoteBoot
