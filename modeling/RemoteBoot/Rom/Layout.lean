import RemoteBoot.Word

/-!
# The configuration ROM of a node

The ROM is an array of big-endian quadlets at a fixed bus address.  The boot agent is known by two
entries, vendor and model, whose low 24 bits count, and publishes the address of its control block
in a third one.
-/

set_option autoImplicit false

namespace RemoteBoot.Rom

/-- The bus address of the first quadlet. -/
def base : Nat := 0xfffff0000400

def vendorIndex : Nat := 6

def modelIndex : Nat := 7

def controlBlockIndex : Nat := 18

def quadletAddress (index : Nat) : Nat :=
  base + index * 4

/-- The value of an entry; the high byte tells what kind of entry it is. -/
def entryValue (quadlet : UInt32) : UInt32 :=
  quadlet &&& 0x00ffffff

def agentVendor : UInt32 := 0xcaffee

def agentModel : UInt32 := 0x000002

/-- The vendor entry as the agent writes it. -/
def vendorEntry (vendor : UInt32) : UInt32 :=
  0x03000000 ||| vendor

/-- The model entry as the agent writes it. -/
def modelEntry (model : UInt32) : UInt32 :=
  0x17000000 ||| model

end RemoteBoot.Rom
