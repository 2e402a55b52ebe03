import RemoteBoot.BusProgram.Transport
import RemoteBoot.Shell.Run

/-!
# The host

A host has a tree of files below its working directory, an environment and, if it is set up for the
bus, a shell script that is its bus program.  Besides that it has only the plainest programs.
-/

set_option autoImplicit false

namespace RemoteBoot

structure Host where
  tree : FileTree := {}
  /-- The text of the bus program. -/
  script : Option Text := none
  environment : List (Text × Text) := []

namespace Host

open BusProgram

/-- The name under which the script is installed. -/
def scriptName : Text := "fwcat".toList

/-- The variable that names the file of the settings. -/
def settingsVariable : Text := "FWBOOT_CONFIG".toList

/-- The variable that replaces the level of the notes. -/
def levelVariable : Text := "FWBOOT_LOG".toList

def settingsFile : Path := .ofString "fwboot.json"

/-- The contents of a file. -/
def contents (host : Host) (path : Path) : Except ReadFailure Bytes :=
  host.tree.source.read path

/-- The settings of the host: from the file that the environment names, else from the usual file if
there is one.  The environment may replace the level of the notes. -/
def settings (host : Host) : Except Fault Settings := do
  let settings ←
    match host.environment.lookup settingsVariable with
    | some name => Settings.ofFile ⟨name⟩ (host.contents ⟨name⟩)
    | none =>
      if host.tree.isFile settingsFile then
        Settings.ofFile settingsFile (host.contents settingsFile)
      else pure {}
  match host.environment.lookup levelVariable with
  | some threshold => pure { settings with threshold }
  | none => pure settings

/-- How much input is taken up before a program reads any of it. -/
def pipeCapacity : Nat := 65536

/-- Runs the script of the host. -/
def runScript (host : Host) (script : Text) (call : Call) : Completion × Host :=
  let text := Shell.ofBytes (Utf8.encode script)
  let environment := host.environment.map fun (name, value) =>
    (Shell.ofBytes (Utf8.encode name), Shell.ofBytes (Utf8.encode value))
  let finished := Shell.runText text environment call.arguments call.input host.tree
  let ending : Ending :=
    match finished.status with
    | .ok status => .code status
    | .error signal => .signal signal
  let unfed := if finished.unread > pipeCapacity then some "Broken pipe (os error 32)" else none
  (⟨ending, finished.output, finished.diagnostics, unfed⟩, { host with tree := finished.tree })

/-- What a plain program does with any arguments. -/
def plainProgram? (name : Text) (call : Call) : Option Completion :=
  let directories := ["".toList, "/bin/".toList, "/usr/bin/".toList]
  let isNamed (plain : String) : Bool :=
    directories.any fun directory => name = directory ++ plain.toList
  if isNamed "true" then some ⟨.code 0, [], [], none⟩
  else if isNamed "false" then some ⟨.code 1, [], [], none⟩
  else if isNamed "echo" then
    let line := (call.arguments.intersperse [' ']).flatten ++ ['\n']
    some ⟨.code 0, Utf8.encode line, [], none⟩
  else none

/-- Why a file under a path cannot be run: there is none, or it is not a program. -/
def refusal (host : Host) (path : Path) : SystemError :=
  match host.tree.locate path with
  | .error failure => failure
  | .ok spot =>
    match host.tree.entryAt spot with
    | none => .noEntry
    | some _ => .notPermitted

/-- Runs a program of the host. -/
def launch : Launcher Host := fun call host =>
  if '\x00' ∈ call.program then (.error "nul byte found in provided data", host)
  else
    match plainProgram? call.program call with
    | some completion => (.ok completion, host)
    | none =>
      if '/' ∈ call.program then (.error (host.refusal ⟨call.program⟩).message, host)
      else
        match if call.program = scriptName then host.script else none with
        | some script =>
          let (completion, host) := host.runScript script call
          (.ok completion, host)
        | none => (.error SystemError.noEntry.message, host)

end Host
end RemoteBoot
