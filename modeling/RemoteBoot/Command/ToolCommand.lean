import RemoteBoot.Command.Usage

/-!
# Commands of the maintenance program

A command is its name and its arguments.  Numbers are read from the left, and a number has to fit
what it is used for.
-/

set_option autoImplicit false

namespace RemoteBoot.Command

inductive ToolCommand where
  /-- Restart the node; without an image the one of the settings is used. -/
  | reboot (hypervisor : Option Path)
  | load (image : Path)
  | peek (address length : Nat)
  | poke (address : Nat) (value : UInt32)
  /-- Show the configuration ROM. -/
  | rom
  /-- Send an external interrupt. -/
  | interrupt (vector : UInt8)
  deriving DecidableEq, Repr

namespace ToolCommand

def number (text : Text) : Except UsageError Nat :=
  match Numeral.argument? text with
  | some value => .ok value
  | none => .error (.notNumber text)

def numberBelow (bound : Nat) (text : Text) : Except UsageError Nat := do
  let value ← number text
  if value < bound then pure value else throw (.outOfRange text)

/-- The command of a name with its arguments. -/
def ofName (name : String) (arguments : List Text) : Except UsageError ToolCommand :=
  match name, arguments with
  | "reboot", [] => pure (.reboot none)
  | "reboot", [path] => pure (.reboot (some ⟨path⟩))
  | "load", [path] => pure (.load ⟨path⟩)
  | "peek", [address] => do
    let address ← number address
    pure (.peek address 4)
  | "peek", [address, length] => do
    let address ← number address
    let length ← numberBelow 0x100000000 length
    pure (.peek address length)
  | "poke", [address, value] => do
    let address ← number address
    if address % 4 ≠ 0 then
      throw (.misaligned address)
    else
      let value ← numberBelow 0x100000000 value
      pure (.poke address (UInt32.ofNat value))
  | "crom", [] => pure .rom
  | "extint", [vector] => do
    let vector ← numberBelow 256 vector
    pure (.interrupt (UInt8.ofNat vector))
  | name, _ => throw (.badCommand name.toList)

def parse : List Text → Except UsageError ToolCommand
  | [] => .error .missingCommand
  | command :: arguments => ofName (String.ofList command) arguments

end ToolCommand
end RemoteBoot.Command
