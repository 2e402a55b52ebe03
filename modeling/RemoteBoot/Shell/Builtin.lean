import RemoteBoot.Shell.Machine
import RemoteBoot.Shell.Arithmetic

/-!
# Commands that change the shell

They leave the script, a function or a loop, and change arguments, variables or options.  Each takes
its arguments and gives its exit status.
-/

set_option autoImplicit false

namespace RemoteBoot.Shell

namespace Builtin

/-- The number in the first argument. -/
def countArgument (standard : Nat) (arguments : List Text) : Nat :=
  match arguments with
  | [] => standard
  | text :: _ => ((Arithmetic.number? text).getD 0).toNat

/-- The status that ends a script; eight bits of it are kept. -/
def endStatus (arguments : List Text) : Script Nat := do
  let status := (← get).status
  pure (countArgument status arguments % 256)

def leave (arguments : List Text) : Script Nat := do
  throw (.leave (← endStatus arguments))

def finish (arguments : List Text) : Script Nat := do
  let status ← endStatus arguments
  modify fun machine => { machine with status }
  throw .finishFunction

def shift (arguments : List Text) : Script Nat := do
  let count := countArgument 1 arguments
  let machine ← get
  if count ≤ machine.arguments.length then
    set { machine with arguments := machine.arguments.drop count }
    pure 0
  else pure 1

/-- Changes options, and replaces the arguments of the script if any are given. -/
def change : List Text → Script Nat
  | [] => pure 0
  | first :: rest => do
    if first = "--".toList then
      modify fun machine => { machine with arguments := rest }
      pure 0
    else
      match first with
      | '-' :: options =>
        if 'e' ∈ options then modify fun machine => { machine with strict := true }
        change rest
      | '+' :: options =>
        if 'e' ∈ options then modify fun machine => { machine with strict := false }
        change rest
      | _ =>
        modify fun machine => { machine with arguments := first :: rest }
        pure 0

/-- Assigns the variables that are given with a value. -/
def declare (arguments : List Text) : Script Nat := do
  for argument in arguments do
    let name := argument.takeWhile fun character => character ≠ '='
    if name.length < argument.length then
      modify (Machine.assign name (argument.drop (name.length + 1)))
  pure 0

def unset (arguments : List Text) : Script Nat := do
  for name in arguments do
    modify fun machine =>
      { machine with bindings := machine.bindings.filter fun (other, _) => other ≠ name }
  pure 0

/-- Signals by name, without those that no script survives to name. -/
def signals : List (String × Nat) :=
  [("EXIT", 0), ("HUP", 1), ("INT", 2), ("QUIT", 3), ("ILL", 4), ("TRAP", 5), ("ABRT", 6),
    ("BUS", 7), ("FPE", 8), ("KILL", 9), ("USR1", 10), ("SEGV", 11), ("USR2", 12), ("PIPE", 13),
    ("ALRM", 14), ("TERM", 15), ("STKFLT", 16), ("CHLD", 17), ("CONT", 18), ("STOP", 19),
    ("TSTP", 20), ("TTIN", 21), ("TTOU", 22), ("URG", 23), ("XCPU", 24), ("XFSZ", 25),
    ("VTALRM", 26), ("PROF", 27), ("WINCH", 28), ("POLL", 29), ("PWR", 30), ("SYS", 31)]

/-- The number of a signal given by name or by number. -/
def signal? (text : Text) : Option Nat :=
  match Numeral.ofDigits? 10 text with
  | some number => some number
  | none => signals.lookup (String.ofList text)

/-- Signals that a process ignores, nothing at all among them. -/
def isIgnored (signal : Nat) : Bool :=
  [0, 17, 18, 23, 28].contains signal

/-- Sends a signal; the only process that can be reached is the script. -/
def kill (arguments : List Text) : Script Nat := do
  let (name, targets) :=
    match arguments with
    | ['-', 's'] :: name :: targets => (name, targets)
    | ('-' :: name) :: targets => (name, targets)
    | targets => ("TERM".toList, targets)
  match signal? name with
  | none => pure 2
  | some number =>
    if targets ≠ [['1']] then pure 1
    else if isIgnored number then pure 0
    else throw (.killed number)

/-- The command of a name that changes the shell. -/
def find? (name : Text) : Option (List Text → Script Nat) :=
  match String.ofList name with
  | "exit" => some leave
  | "return" => some finish
  | "break" => some fun arguments => throw (.stopLoop (countArgument 1 arguments))
  | "continue" => some fun arguments => throw (.nextRound (countArgument 1 arguments))
  | "shift" => some shift
  | "set" => some change
  | "export" | "readonly" | "local" => some declare
  | "unset" => some unset
  | "kill" => some kill
  | _ => none

end Builtin
end RemoteBoot.Shell
