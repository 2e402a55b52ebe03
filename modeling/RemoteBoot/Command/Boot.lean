import RemoteBoot.Boot.Session
import RemoteBoot.Command.BootOptions
import RemoteBoot.Command.Console

/-!
# The boot program

It waits for an agent unless it is told not to, and runs one session.  It waits as long as no agent
answers, so it is looked at after a number of probes: it may be waiting still, and then it has done
nothing but probe.
-/

set_option autoImplicit false

namespace RemoteBoot.Command

variable {ρ : Type}

/-- Whether the program may go on to its session: an agent answered one of so many probes, or the
program is told not to wait. -/
def BootOptions.awaitAgent (options : BootOptions) (remote : Remote (Console ρ)) (node : UInt32)
    (probes : Nat) : Engine (Console ρ) Bool := do
  if options.once then
    pure true
  else
    Engine.note .info .program
      ("Waiting for an agent on node " ++ Numeral.decimal node.toNat ++ "...")
    let found ← Rom.waitForAgent remote probes
    pure found.isSome

def BootOptions.program (machine : Machine ρ) (probes : Nat) (options : BootOptions)
    (settings : Settings) : Engine (Console ρ) Standing := do
  let remote := BusProgram.remote (Console.launch machine.launch) settings.bus
  if ← options.awaitAgent remote settings.bus.node probes then
    Console.setPurpose ("booting " ++ options.manifest.toString)
    let report ← Boot.runLive remote (fun console => machine.files console.machine) options.manifest
      settings.bootDirectory settings.loadAddress
    Engine.note .info .program (Numeral.decimal report.modules.length
      ++ " modules handed to the agent at " ++ Numeral.hex report.controlBlock)
    pure .ended
  else
    pure .waiting

def isHelp (argument : Text) : Bool :=
  argument = "-h".toList || argument = "--help".toList

/-- Calls the boot program and looks at it after a number of probes. -/
def boot (probes : Nat) (arguments : List Text) (host : Host) : Option Exit :=
  if arguments.any isHelp then
    some { code := 0, output := bootUsage ++ "\n", diagnostics := "", host }
  else
    match BootOptions.parse arguments with
    | .error error => some (Exit.misused host error bootUsage)
    | .ok options => Exit.ofProgram "fwboot" (options.program hostMachine probes) host

end RemoteBoot.Command
