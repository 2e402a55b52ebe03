import RemoteBoot.Word

/-!
# Interrupt gates

A 32-bit interrupt gate is four 16-bit words.  The offset of its handler is split over the first and
the last of them, so only the low 32 bits of a handler are kept.
-/

set_option autoImplicit false

namespace RemoteBoot.Restart

structure Gate where
  offsetLow : UInt16
  selector : UInt16
  attributes : UInt16
  offsetHigh : UInt16
  deriving DecidableEq, Repr

namespace Gate

/-- The bytes of one gate. -/
def size : Nat := 8

/-- The code segment of the hypervisor. -/
def codeSelector : UInt16 := 0x0008

/-- Present, most privileged, 32-bit interrupt gate. -/
def interruptAttributes : UInt16 := 0x8e00

/-- A gate that jumps to a handler. -/
def ofHandler (handler : Nat) : Gate :=
  ⟨UInt16.ofNat handler, codeSelector, interruptAttributes, UInt16.ofNat (handler / 65536)⟩

/-- The offset that the processor jumps to. -/
def handler (gate : Gate) : Nat :=
  gate.offsetHigh.toNat * 65536 + gate.offsetLow.toNat

def toBytes (gate : Gate) : Bytes :=
  [gate.offsetLow, gate.selector, gate.attributes, gate.offsetHigh].flatMap fun word =>
    Word.littleEndian 2 word.toNat

end Gate
end RemoteBoot.Restart
