import RemoteBoot.Command.Usage
import RemoteBoot.Host

/-!
# Programs of the operator

A program works on a machine, which runs the bus program and has files.  It prints lines and ends
with an exit code.  A fault is shown behind the name of the program and what it was about, followed
by all its causes.  Notes are shown as far as the settings ask for them.
-/

set_option autoImplicit false

namespace RemoteBoot.Command

/-- What the programs need of the machine that they run on; its state is a `ρ`. -/
structure Machine (ρ : Type) where
  launch : BusProgram.Launcher ρ
  /-- The files as they are in a state. -/
  files : ρ → FileSource

/-- The machine that a host is. -/
def hostMachine : Machine Host where
  launch := Host.launch
  files host := host.tree.source

/-- What a program works on. -/
structure Console (ρ : Type) where
  machine : ρ
  /-- What was printed. -/
  output : String := ""
  /-- What the program is about, shown in front of a fault. -/
  purpose : Option String := none

namespace Console

variable {ρ : Type}

def print (line : String) : Engine (Console ρ) Unit := fun console =>
  ⟨.ok (), { console with output := console.output ++ line ++ "\n" }, []⟩

def setPurpose (purpose : String) : Engine (Console ρ) Unit := fun console =>
  ⟨.ok (), { console with purpose := some purpose }, []⟩

/-- Runs a bus program on the machine. -/
def launch (launch : BusProgram.Launcher ρ) : BusProgram.Launcher (Console ρ) := fun call console =>
  let (completion, machine) := launch call console.machine
  (completion, { console with machine })

/-- Reads the image in a file of the machine. -/
def openImage (files : ρ → FileSource) (path : Path) : Engine (Console ρ) Image := do
  let console ← Engine.look
  Engine.ofNoted (Image.ofFile (files console.machine) path)

end Console

/-- How far a program has come. -/
inductive Standing where
  /-- It waits for an agent that has not answered so far. -/
  | waiting
  | ended
  deriving DecidableEq, Repr

/-- What a program leaves when it has ended. -/
structure Exit where
  code : Nat
  output : String
  diagnostics : String
  host : Host
  /-- The fault that ended it. -/
  fault : Option Fault := none

namespace Exit

/-- A program that was called in a wrong way. -/
def misused (host : Host) (error : UsageError) (usage : String) : Exit :=
  { code := 2, output := "", diagnostics := error.message ++ "\n" ++ usage ++ "\n", host }

/-- A fault as it is shown to the operator. -/
def faultLine (name : String) (purpose : Option String) (fault : Fault) : String :=
  String.intercalate ": " ([name] ++ purpose.toList ++ [fault.message] ++ fault.causes) ++ "\n"

/-- The notes that a threshold shows. -/
def shownNotes (threshold : Threshold) (notes : List Note) : String :=
  String.join ((notes.filter fun note => threshold.shows note.level).map fun note =>
    note.line ++ "\n")

/-- Runs a program with the settings of the host; `none` is a program that has not ended. -/
def ofProgram (name : String) (program : Settings → Engine (Console Host) Standing) (host : Host) :
    Option Exit :=
  match host.settings with
  | .error fault =>
    some
      { code := 1, output := "", host, fault := some fault
        diagnostics := faultLine name (some "loading configuration") fault }
  | .ok settings =>
    let left := program settings { machine := host }
    let console := left.node
    let finished : Exit :=
      { code := 0, output := console.output, host := console.machine
        diagnostics := shownNotes settings.shownLevel left.notes }
    match left.result with
    | .ok .waiting => none
    | .ok .ended => some finished
    | .error (.fault fault) =>
      some
        { finished with
          code := 1
          fault := some fault
          diagnostics := finished.diagnostics ++ faultLine name console.purpose fault }
    | .error (.crash _) => some { finished with code := 101 }

/-- The file that the program could not read. -/
def missing? (left : Exit) : Option Path :=
  match left.fault with
  | some (.manifest file (.unreadable _)) => some file
  | some (.binary name _) => some (.ofString name)
  | _ => none

/-- The files that the program changed, by where they were on the host before. -/
def changed (before : Host) (left : Exit) : List (Path × Bytes) :=
  (left.host.tree.files.filter fun (trail, contents) =>
    before.tree.files.lookup trail ≠ some contents).map fun (trail, contents) =>
      ((Place.mk false trail).path, contents)

end Exit
end RemoteBoot.Command
