import RemoteBoot.Command.Console
import RemoteBoot.Command.ToolCommand
import RemoteBoot.Image.Loading
import RemoteBoot.Rom.Discovery

/-!
# The maintenance program

It carries out one command against a node: restart, load, look at memory, write a word, show the
configuration ROM or send an interrupt.
-/

set_option autoImplicit false

namespace RemoteBoot.Command

variable {ρ : Type}

/-- How many bytes one line shows. -/
def bytesPerLine : Nat := 16

/-- Bytes behind their address. -/
def dumpLine (address : Nat) (bytes : Bytes) : String :=
  let shown := bytes.map fun byte => Numeral.bareHex 2 byte.toNat
  Numeral.paddedHex 12 address ++ ": " ++ String.intercalate " " shown

/-- Prints bytes in lines.  The first argument bounds the number of lines, and the bytes lie at an
offset from an address. -/
def dump : Nat → Nat → Nat → Bytes → Engine (Console ρ) Unit
  | 0, _, _, _ => pure ()
  | _ + 1, _, _, [] => pure ()
  | lines + 1, address, offset, bytes => do
    let place ← Engine.ofChecked (Checked.sum address offset)
    Console.print (dumpLine place (bytes.take bytesPerLine))
    dump lines address (offset + bytesPerLine) (bytes.drop bytesPerLine)

/-- How many quadlets of the ROM are shown. -/
def shownQuadlets : Nat := 0x100

def discoveryLine (discovery : Rom.Discovery) : String :=
  "agent: " ++ (if discovery.isAgent then "true" else "false") ++ " (vendor "
    ++ Numeral.paddedHex 8 discovery.vendor.toNat ++ ", model "
    ++ Numeral.paddedHex 8 discovery.model.toNat ++ ")"

def quadletLine (index : Nat) (quadlet : UInt32) : String :=
  String.ofList (Numeral.padLeft 3 ' ' (Numeral.render 10 index)) ++ ": "
    ++ Numeral.bareHex 8 quadlet.toNat

def ToolCommand.program (machine : Machine ρ) (command : ToolCommand) (settings : Settings) :
    Engine (Console ρ) Unit := do
  let remote := BusProgram.remote (Console.launch machine.launch) settings.bus
  match command with
  | .reboot hypervisor =>
    let image ← Console.openImage machine.files (hypervisor.getD settings.hypervisor)
    Console.setPurpose "rebooting node"
    Restart.Controller.reboot remote ⟨image, settings.tableSymbol, settings.resetSymbol⟩
  | .load path =>
    let image ← Console.openImage machine.files path
    Console.setPurpose "loading image"
    let entry ← image.load remote
    Console.print ("entry " ++ Numeral.hex entry)
  | .peek address length =>
    let bytes ← remote.fetch address length
    dump bytes.length address 0 bytes
  | .poke address value => remote.storeWord address value
  | .rom =>
    let discovery ← Rom.discover remote
    Console.print (discoveryLine discovery)
    let quadlets ← Rom.readRom remote shownQuadlets
    quadlets.zipIdx.forM fun (quadlet, index) => Console.print (quadletLine index quadlet)
  | .interrupt vector => Restart.Signal.send remote (.external vector)

/-- Calls the maintenance program, which waits for nothing. -/
def tool (arguments : List Text) (host : Host) : Option Exit :=
  match ToolCommand.parse arguments with
  | .error error => some (Exit.misused host error toolUsage)
  | .ok command =>
    let program (settings : Settings) : Engine (Console Host) Standing := do
      command.program hostMachine settings
      pure .ended
    Exit.ofProgram "fwtool" program host

end RemoteBoot.Command
