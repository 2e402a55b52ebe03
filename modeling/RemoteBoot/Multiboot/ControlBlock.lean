import RemoteBoot.Remote.Engine

/-!
# The agent's control block

Seven little-endian words at the head of the agent's multiboot information.  The agent owns the
block; the host reads it and writes single words.  Flag bits that have no meaning here are kept.
-/

set_option autoImplicit false

namespace RemoteBoot.Multiboot

structure ControlBlock where
  flags : UInt32
  memLower : UInt32
  memUpper : UInt32
  bootDevice : UInt32
  commandLine : UInt32
  modsCount : UInt32
  modsAddress : UInt32
  deriving DecidableEq, Repr

namespace Flag

def mem : UInt32 := 0x001

def commandLine : UInt32 := 0x004

/-- The module count and the address of the module array are valid. -/
def mods : UInt32 := 0x008

def mmap : UInt32 := 0x040

def bootLoaderName : UInt32 := 0x200

/-- Whether a flags word has every bit of a flag. -/
def isIn (flag flags : UInt32) : Bool :=
  flags &&& flag == flag

end Flag

namespace ControlBlock

/-- The bytes that the seven words cover. -/
def size : Nat := 28

def flagsOffset : Nat := 0

/-- The agent waits for this word to change. -/
def modsCountOffset : Nat := 20

def modsAddressOffset : Nat := 24

def words (block : ControlBlock) : List UInt32 :=
  [block.flags, block.memLower, block.memUpper, block.bootDevice, block.commandLine,
    block.modsCount, block.modsAddress]

def toBytes (block : ControlBlock) : Bytes :=
  block.words.flatMap Word.bytes

/-- The block at the head of some bytes. -/
def ofBytes? (bytes : Bytes) : Option ControlBlock :=
  if bytes.length < size then none
  else
    some {
      flags := Word.ofBytes bytes
      memLower := Word.ofBytes (bytes.drop 4)
      memUpper := Word.ofBytes (bytes.drop 8)
      bootDevice := Word.ofBytes (bytes.drop 12)
      commandLine := Word.ofBytes (bytes.drop 16)
      modsCount := Word.ofBytes (bytes.drop modsCountOffset)
      modsAddress := Word.ofBytes (bytes.drop modsAddressOffset) }

/-- The block with its module words declared valid. -/
def withMods (block : ControlBlock) : ControlBlock :=
  { block with flags := block.flags ||| Flag.mods }

/-- Reads the block at an address of a node. -/
def fetch {σ : Type} (remote : Remote σ) (address : Nat) : Engine σ ControlBlock := do
  let bytes ← remote.fetch address size
  match ofBytes? bytes with
  | some block => pure block
  | none => Engine.fail (.shortTransfer "read" address size bytes.length)

end ControlBlock
end RemoteBoot.Multiboot
