import RemoteBoot.Path.Basic

/-!
# Malformed command lines

Why a command line is refused, and the summaries of the two programs.
-/

set_option autoImplicit false

namespace RemoteBoot.Command

inductive UsageError where
  | unknownOption (option : Text)
  | missingManifest
  | extraManifest
  | missingCommand
  /-- No such command, or not with these arguments. -/
  | badCommand (command : Text)
  | notNumber (text : Text)
  | outOfRange (text : Text)
  | misaligned (address : Nat)
  deriving DecidableEq, Repr

def UsageError.message : UsageError → String
  | .unknownOption option => "option " ++ String.ofList option ++ " not recognized"
  | .missingManifest => "missing manifest"
  | .extraManifest => "expected exactly one manifest"
  | .missingCommand => "missing command"
  | .badCommand command => "bad command or arguments: " ++ String.ofList command
  | .notNumber text => "not a number: " ++ String.ofList text
  | .outOfRange text => "out of range: " ++ String.ofList text
  | .misaligned address => "poke address " ++ Numeral.hex address ++ " is not word aligned"

def bootUsage : String :=
  "usage: fwboot [--once] <manifest>\n" ++
  "  --once    Don't wait for a node to come up."

def toolUsage : String :=
  "usage: fwtool <command>\n" ++
  "  reboot [hypervisor]     redirect the NMI gate to the reset handler and kick the CPU\n" ++
  "  load <elf>              write an ELF image's segments to their physical addresses\n" ++
  "  peek <addr> [len]       dump target memory\n" ++
  "  poke <addr> <value>     write one 32-bit word\n" ++
  "  crom                    dump the configuration ROM\n" ++
  "  extint <vector>         send an external interrupt"

end RemoteBoot.Command
