import RemoteBoot.Command.Boot
import RemoteBoot.Command.Tool

/-!
# The command line

The first argument names the program.  A run is worked out on the files that were fetched so far and
with a number of probes.  As long as it misses or changes a file that was not fetched before, that
file is fetched and the run is worked out again; a run that still waits for an agent is worked out
again with twice as many probes.  Only the last run counts: its changes are written and its output
is shown.  All files are below the working directory; the bus program is a script on the search path.
-/

set_option autoImplicit false

namespace RemoteBoot.CommandLine

/-- The programs by their names; each is told how often it may probe. -/
def programs : List (String × (Nat → List Text → Host → Option Command.Exit)) :=
  [("fwboot", Command.boot), ("fwtool", fun _ => Command.tool)]

/-- The contents of a file, unless it cannot be read. -/
def fetch? (name : String) : IO (Option Bytes) := do
  try
    let contents ← IO.FS.readBinFile name
    pure (some contents.toList)
  catch _ => pure none

/-- The host with files fetched. -/
def fetchAll (host : Host) (paths : List Path) : IO Host := do
  let mut tree := host.tree
  for path in paths do
    if let some contents ← fetch? path.toString then tree := tree.add path contents
  pure { host with tree }

/-- The script in the first directory that has one. -/
def findScript (directories : List Text) : IO (Option Text) := do
  for directory in directories do
    let path := (Path.mk directory).join ⟨Host.scriptName⟩
    if let some contents ← fetch? path.toString then
      return (Utf8.decode contents).toOption
  pure none

/-- Works a run out, at most so many times, and gives it in between what it lacks: more probes, or
files. -/
def settle (run : Nat → Host → Option Command.Exit) :
    Nat → Nat → Host → List Path → IO (Option (Host × Command.Exit))
  | 0, probes, host, _ => pure ((run probes host).map fun left => (host, left))
  | rounds + 1, probes, host, fetched => do
    match run probes host with
    | none => settle run rounds (2 * probes) host fetched
    | some left =>
      let touched := left.missing?.toList ++ (left.changed host).map Prod.fst
      match touched.filter fun path => path ∉ fetched with
      | [] => pure (some (host, left))
      | wanted => settle run rounds probes (← fetchAll host wanted) (wanted ++ fetched)

/-- The host as far as it has to be known before a run. -/
def observe : IO Host := do
  let search := (← IO.getEnv "PATH").getD ""
  let script ← findScript (Path.splitAt ':' search.toList)
  let mut environment : List (Text × Text) := []
  for name in [Host.settingsVariable, Host.levelVariable] do
    if let some value ← IO.getEnv (String.ofList name) then
      environment := (name, value.toList) :: environment
  let named := (environment.lookup Host.settingsVariable).toList.map Path.mk
  fetchAll { script, environment } (Host.settingsFile :: named)

/-- Runs the program that the first argument names; the result is its exit code. -/
def run (arguments : List String) : IO UInt32 := do
  match arguments with
  | [] =>
    IO.eprintln "missing program"
    pure 2
  | name :: arguments =>
    match programs.lookup name with
    | none =>
      IO.eprintln ("no such program: " ++ name)
      pure 2
    | some program =>
      let arguments := arguments.map String.toList
      match ← settle (fun probes => program probes arguments) 1000 100 (← observe) [] with
      | none =>
        IO.eprintln "still waiting for an agent"
        pure 2
      | some (host, left) =>
        for (path, contents) in left.changed host do
          IO.FS.writeBinFile path.toString contents.toByteArray
        IO.print left.output
        IO.eprint left.diagnostics
        pure (UInt32.ofNat left.code)

end RemoteBoot.CommandLine

def main (arguments : List String) : IO UInt32 :=
  RemoteBoot.CommandLine.run arguments
