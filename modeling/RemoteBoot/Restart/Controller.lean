import RemoteBoot.Image.Reader
import RemoteBoot.Restart.Gate
import RemoteBoot.Restart.Signal

/-!
# Warm restart of a running hypervisor

The gate of the non-maskable interrupt is redirected to the reset routine of the hypervisor.  Then
the processor is sent an initialisation signal and a non-maskable interrupt.
-/

set_option autoImplicit false

namespace RemoteBoot.Restart

variable {σ : Type}

/-- An image of the hypervisor and the symbols of its gate table and its reset routine. -/
structure Controller where
  image : Image
  tableSymbol : Text
  resetSymbol : Text

namespace Controller

def defaultTableSymbol : Text := "_ZN3Idt3idtE".toList

def defaultResetSymbol : Text := "_ZN4Acpi5resetEv".toList

/-- The slot of the non-maskable interrupt. -/
def gateIndex : Nat := 2

/-- The physical address of the redirected gate. -/
def gateAddress (controller : Controller) : Except Stop Nat := do
  let table ← controller.image.symbolPhysical controller.tableSymbol
  Checked.sum table (gateIndex * Gate.size)

def gate (controller : Controller) : Except Fault Gate := do
  let handler ← controller.image.symbol controller.resetSymbol
  pure (.ofHandler handler)

/-- Redirects the gate. -/
def patch (remote : Remote σ) (controller : Controller) : Engine σ Unit := do
  let address ← Engine.ofChecked controller.gateAddress
  let gate ← Engine.ofExcept controller.gate
  Engine.note .info .restart ("patching IDT gate at " ++ Numeral.hex address ++ " -> "
    ++ Numeral.hex gate.handler)
  remote.store address gate.toBytes

def reboot (remote : Remote σ) (controller : Controller) : Engine σ Unit := do
  controller.patch remote
  Signal.send remote .init
  Signal.send remote .nmi

end Controller
end RemoteBoot.Restart
