import RemoteBoot.Shell.Utilities.Condition
import RemoteBoot.Shell.Utilities.Entries
import RemoteBoot.Shell.Utilities.Streams

/-!
# Utilities of the shell

The programs that a bus script calls, by name.  Each takes its arguments and gives its exit status.
-/

set_option autoImplicit false

namespace RemoteBoot.Shell.Utilities

/-- The utility of a name. -/
def find? (name : Text) : Option (List Text → Effect Nat) :=
  match String.ofList name with
  | "true" | ":" | "sleep" | "sync" | "umask" | "ulimit" | "trap" | "wait" | "chmod" =>
    some fun _ => pure 0
  | "false" => some fun _ => pure 1
  | "echo" => some fun arguments => do
    Effect.print (Format.echo arguments)
    pure 0
  | "printf" => some printFormat
  | "cat" => some cat
  | "head" => some head
  | "tail" => some tail
  | "wc" => some count
  | "tee" => some tee
  | "tr" => some replaceCharacters
  | "dd" => some copyBlocks
  | "seq" => some sequence
  | "mkdir" => some makeDirectories
  | "rm" => some removeFiles
  | "touch" => some touch
  | "cp" => some (copyFile "cp" false)
  | "mv" => some (copyFile "mv" true)
  | "test" => some test
  | "[" => some fun arguments =>
    if arguments.getLast? = some [']'] then test arguments.dropLast else pure 2
  | "read" => some readVariables
  | _ => none

end RemoteBoot.Shell.Utilities
