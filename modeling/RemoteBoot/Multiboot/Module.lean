import RemoteBoot.Checked

/-!
# Modules and their descriptors

A module is a payload in node memory with its command line.  The agent learns of modules through a
block of bytes: one descriptor of four words for each module, then the command lines, each ended by
a zero byte.  Every address in the block has to fit in 32 bits, the end of the block included.
-/

set_option autoImplicit false

namespace RemoteBoot.Multiboot

/-- One pushed payload; `stop` is the first address behind it. -/
structure Module where
  start : Nat
  stop : Nat
  commandLine : Text
  deriving DecidableEq, Repr

structure Descriptor where
  start : UInt32
  stop : UInt32
  commandLine : UInt32
  deriving DecidableEq, Repr

/-- The bytes of one descriptor. -/
def Descriptor.size : Nat := 16

/-- The fourth word of a descriptor is reserved and zero. -/
def Descriptor.toBytes (descriptor : Descriptor) : Bytes :=
  [descriptor.start, descriptor.stop, descriptor.commandLine, 0].flatMap Word.bytes

/-- An address as a 32-bit word. -/
def narrow (address : Nat) : Except Fault UInt32 :=
  if address < 0x100000000 then .ok (UInt32.ofNat address) else .error (.addressOutOfRange address)

namespace Module

/-- The command line as it lies in node memory. -/
def lineBytes (module : Module) : Bytes :=
  Utf8.encode module.commandLine ++ [0]

/-- The descriptor of a module whose command line lies at an address. -/
def descriptor (module : Module) (line : Nat) : Except Fault Descriptor := do
  let commandLine ← narrow line
  let start ← narrow module.start
  let stop ← narrow module.stop
  pure ⟨start, stop, commandLine⟩

/-- The descriptors of modules whose command lines lie one behind the other. -/
def descriptors : Nat → List Module → Except Stop (List Descriptor)
  | line, [] => do
    let _ ← Stop.lift (narrow line)
    pure []
  | line, module :: modules => do
    let first ← Stop.lift (module.descriptor line)
    let next ← Checked.sum line module.lineBytes.length
    let others ← descriptors next modules
    pure (first :: others)

/-- The descriptor block of modules, to be placed at an address. -/
def block (base : Nat) (modules : List Module) : Except Stop Bytes := do
  let line ← Checked.sum base (Descriptor.size * modules.length)
  let descriptors ← descriptors line modules
  pure (descriptors.flatMap Descriptor.toBytes ++ modules.flatMap lineBytes)

end Module
end RemoteBoot.Multiboot
