import RemoteBoot.Shell.Arithmetic
import RemoteBoot.Shell.Machine

/-!
# Operands of utilities

A utility works on the files that it is given, or on its input if it is given none.  Options with a
count are written in one argument or in two.
-/

set_option autoImplicit false

namespace RemoteBoot.Shell.Utilities

open Effect

/-- The message of a utility about a file. -/
def fileMessage (utility : String) (path : Text) (failure : SystemError) : Text :=
  let reason :=
    match failure with
    | .noEntry => "No such file or directory"
    | .notDirectory => "Not a directory"
    | .isDirectory => "Is a directory"
    | .notPermitted => "Permission denied"
    | .nameTooLong => "File name too long"
    | .zeroInName => "Invalid argument"
  utility.toList ++ ": ".toList ++ path ++ ": ".toList ++ reason.toList ++ ['\n']

/-- Joins the contents of files, or what there is to read; `false` if one could not be read. -/
def gather (utility : String) : List Text → Effect (Text × Bool)
  | [] => pure ([], true)
  | path :: paths => do
    let first ← if path = ['-'] then Except.ok <$> readAll else readFile path
    match first with
    | .ok text =>
      let (others, complete) ← gather utility paths
      pure (text ++ others, complete)
    | .error failure =>
      complain (fileMessage utility path failure)
      let (others, _) ← gather utility paths
      pure (others, false)

/-- The operands of a utility, or standard input. -/
def operands (paths : List Text) : List Text :=
  if paths.isEmpty then [['-']] else paths

/-- A count written after an option letter, or as the next argument. -/
def countOption (letter : Char) : List Text → Option (Text × List Text)
  | ('-' :: first :: count) :: rest =>
    if first = letter then
      if count.isEmpty then
        match rest with
        | count :: rest => some (count, rest)
        | [] => none
      else some (count, rest)
    else none
  | _ => none

def natural (text : Text) : Nat :=
  ((Arithmetic.number? text).getD 0).toNat

end RemoteBoot.Shell.Utilities
