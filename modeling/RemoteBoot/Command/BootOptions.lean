import RemoteBoot.Command.Usage

/-!
# Options of the boot program

One manifest, and an option that may stand anywhere and any number of times.  A lone dash is a
manifest.
-/

set_option autoImplicit false

namespace RemoteBoot.Command

structure BootOptions where
  manifest : Path
  /-- Do not wait for the agent. -/
  once : Bool
  deriving DecidableEq, Repr

namespace BootOptions

def onceOption : Text := "--once".toList

/-- An argument that looks like an option. -/
def isOption (argument : Text) : Bool :=
  argument.head? = some '-' && argument ≠ ['-']

/-- The first option that is not known. -/
def unknown? (arguments : List Text) : Option Text :=
  arguments.find? fun argument => isOption argument && argument ≠ onceOption

def parse (arguments : List Text) : Except UsageError BootOptions :=
  match unknown? arguments with
  | some option => .error (.unknownOption option)
  | none =>
    match arguments.filter fun argument => argument ≠ onceOption with
    | [manifest] => .ok ⟨⟨manifest⟩, arguments.contains onceOption⟩
    | [] => .error .missingManifest
    | _ => .error .extraManifest

end BootOptions
end RemoteBoot.Command
