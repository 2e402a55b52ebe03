import RemoteBoot.Node.Memory
import RemoteBoot.Remote.Engine
import RemoteBoot.Rom.Layout

/-!
# A node in memory

A node with byte-addressable memory that counts the reads it answered and keeps every write it took
in the order of issue.  Seeding changes memory without a record.  While a node is absent every
transfer fails and nothing changes.
-/

set_option autoImplicit false

namespace RemoteBoot

/-- One write as it was issued. -/
structure Write where
  address : Nat
  bytes : Bytes
  deriving DecidableEq, Repr

def Write.covers (write : Write) (place : Nat) : Bool :=
  write.address ≤ place && place - write.address < write.bytes.length

structure Node where
  memory : Memory := .blank
  writes : List Write := []
  reads : Nat := 0
  absent : Bool := false

namespace Node

def seed (node : Node) (address : Nat) (bytes : Bytes) : Node :=
  { node with memory := node.memory.store address bytes }

def seedWord (node : Node) (address : Nat) (word : UInt32) : Node :=
  node.seed address (Word.bytes word)

def seedQuadlet (node : Node) (index : Nat) (quadlet : UInt32) : Node :=
  node.seed (Rom.quadletAddress index) (Word.quadletBytes quadlet)

/-- Fills the ROM entries that an agent has. -/
def seedRom (node : Node) (vendor model controlBlock : UInt32) : Node :=
  ((node.seedQuadlet Rom.vendorIndex (Rom.vendorEntry vendor)).seedQuadlet Rom.modelIndex
    (Rom.modelEntry model)).seedQuadlet Rom.controlBlockIndex controlBlock

/-- A node on which the boot agent runs. -/
def withAgent (controlBlock : UInt32) : Node :=
  ({} : Node).seedRom Rom.agentVendor Rom.agentModel controlBlock

def clearWrites (node : Node) : Node :=
  { node with writes := [] }

def absence (operation : String) (address : Nat) : Fault :=
  .transport ("in-memory " ++ operation ++ " " ++ Numeral.hex address) "node not present"

def read (address length : Nat) (node : Node) : Transfer Node Bytes :=
  if node.absent then ⟨.error (.fault (absence "read" address)), node, []⟩
  else ⟨.ok (node.memory.peek address length), { node with reads := node.reads + 1 }, []⟩

def write (address : Nat) (bytes : Bytes) (node : Node) : Transfer Node Unit :=
  if node.absent then ⟨.error (.fault (absence "write" address)), node, []⟩
  else
    ⟨.ok (), { node.seed address bytes with writes := node.writes ++ [⟨address, bytes⟩] }, []⟩

def remote : Remote Node where
  read := read
  write := write

end Node
end RemoteBoot
