import RemoteBoot.Files.Tree
import RemoteBoot.Shell.Grammar

/-!
# The state of a running script

A script sees a tree of files, variables, arguments and numbered descriptors.  A descriptor leads to
a buffer that collects output, to a file, to unread input or to nothing.
-/

set_option autoImplicit false

namespace RemoteBoot.Shell

/-- Where a descriptor leads. -/
inductive Channel where
  /-- A buffer of collected output. -/
  | buffer (index : Nat)
  /-- The end of a file. -/
  | file (trail : List Text)
  /-- Input that has not been read. -/
  | input (index : Nat)
  | void
  deriving DecidableEq, Repr

structure Machine where
  tree : FileTree
  bindings : List (Text × Text) := []
  arguments : List Text := []
  functions : List (Text × Command) := []
  status : Nat := 0
  /-- Whether a failing command ends the script. -/
  strict : Bool := false
  /-- Whether the running command is a condition. -/
  guarded : Bool := false
  /-- The status of a command whose output became part of a word. -/
  substituted : Option Nat := none
  descriptors : List (Nat × Channel) := []
  /-- Collected output, newest first. -/
  buffers : Array (List Text) := #[]
  inputs : Array Text := #[]

/-- An effect on the machine. -/
abbrev Effect (α : Type) := StateM Machine α

/-- What keeps a script from going on with the next command. -/
inductive Interruption where
  /-- The script, or the subshell, ends. -/
  | leave (status : Nat)
  /-- A signal ends the script. -/
  | killed (signal : Nat)
  | stopLoop (levels : Nat)
  | nextRound (levels : Nat)
  | finishFunction
  deriving DecidableEq, Repr

/-- A part of a script that can be interrupted; what it did before stays done. -/
abbrev Script (α : Type) := ExceptT Interruption (StateM Machine) α

namespace Machine

def lookup (machine : Machine) (name : Text) : Option Text :=
  machine.bindings.lookup name

def assign (name value : Text) (machine : Machine) : Machine :=
  { machine with
    bindings := (name, value) :: machine.bindings.filter fun (other, _) => other ≠ name }

def channel (machine : Machine) (descriptor : Nat) : Channel :=
  (machine.descriptors.lookup descriptor).getD .void

def connect (descriptor : Nat) (channel : Channel) (machine : Machine) : Machine :=
  { machine with descriptors :=
      (descriptor, channel) :: machine.descriptors.filter fun (other, _) => other ≠ descriptor }

/-- Appends text to what a channel leads to. -/
def send (channel : Channel) (text : Text) (machine : Machine) : Machine :=
  match channel with
  | .buffer index =>
    { machine with buffers := machine.buffers.modify index fun parts => text :: parts }
  | .file trail =>
    let old := (machine.tree.files.lookup trail).getD []
    { machine with tree := machine.tree.store trail (old ++ toBytes text) }
  | _ => machine

/-- What a buffer has collected. -/
def collected (machine : Machine) (index : Nat) : Text :=
  (machine.buffers.getD index []).reverse.flatten

/-- The text of a parameter that is not a variable; `none` if it has no value. -/
def special? (machine : Machine) (name : Text) : Option Text :=
  match name with
  | ['#'] => some (Numeral.render 10 machine.arguments.length)
  | ['?'] => some (Numeral.render 10 machine.status)
  | ['$'] => some "1".toList
  | ['*'] => some (machine.arguments.intersperse [' ']).flatten
  | ['@'] => some (machine.arguments.intersperse [' ']).flatten
  | ['-'] => some []
  | ['!'] => some []
  | ['0'] => some "fwcat".toList
  | name =>
    match Numeral.ofDigits? 10 name with
    | some (index + 1) => machine.arguments[index]?
    | _ => none

/-- The value of a parameter. -/
def parameter? (machine : Machine) (name : Text) : Option Text :=
  match name with
  | first :: _ =>
    if first.isAlpha || first == '_' then machine.lookup name else machine.special? name
  | [] => none

end Machine

namespace Effect

def print (text : Text) : Effect Unit := fun machine =>
  ((), machine.send (machine.channel 1) text)

def complain (text : Text) : Effect Unit := fun machine =>
  ((), machine.send (machine.channel 2) text)

/-- Everything that is left to read. -/
def readAll : Effect Text := fun machine =>
  match machine.channel 0 with
  | .input index =>
    (machine.inputs.getD index [], { machine with inputs := machine.inputs.setIfInBounds index [] })
  | _ => ([], machine)

/-- The next line without its end, and whether there was one. -/
def readLine : Effect (Text × Bool) := fun machine =>
  match machine.channel 0 with
  | .input index =>
    let unread := machine.inputs.getD index []
    let line := unread.takeWhile fun character => character ≠ '\n'
    ((line, line.length < unread.length),
      { machine with inputs := machine.inputs.setIfInBounds index (unread.drop (line.length + 1)) })
  | _ => (([], false), machine)

/-- The contents of a named file. -/
def readFile (path : Text) : Effect (Except SystemError Text) := do
  if path = "/dev/null".toList then
    pure (.ok [])
  else
    let machine ← get
    match machine.tree.read ⟨path⟩ with
    | .ok contents => pure (.ok (ofBytes contents))
    | .error failure => pure (.error failure)

/-- The trail of a file that can be written. -/
def writable (path : Text) : Effect (Except SystemError (List Text)) := do
  let machine ← get
  match machine.tree.locate ⟨path⟩ with
  | .error failure => pure (.error failure)
  | .ok spot =>
    match spot, machine.tree.entryAt spot with
    | _, some .directory => pure (.error .isDirectory)
    | .inside trail, _ => pure (.ok trail)
    | _, _ => pure (.error .noEntry)

/-- Replaces the contents of a named file. -/
def writeFile (path contents : Text) : Effect (Except SystemError Unit) := do
  match ← writable path with
  | .error failure => pure (.error failure)
  | .ok trail =>
    modify fun machine => { machine with tree := machine.tree.store trail (toBytes contents) }
    pure (.ok ())

/-- Opens a file for output; it is emptied unless output is to be appended. -/
def openOutput (path : Text) (append : Bool) : Effect (Except SystemError Channel) := do
  if path = "/dev/null".toList then
    pure (.ok .void)
  else if path = "/dev/stdout".toList then
    return .ok ((← get).channel 1)
  else if path = "/dev/stderr".toList then
    return .ok ((← get).channel 2)
  else
    match ← writable path with
    | .error failure => pure (.error failure)
    | .ok trail =>
      modify fun machine =>
        let old := if append then (machine.tree.files.lookup trail).getD [] else []
        { machine with tree := machine.tree.store trail old }
      pure (.ok (.file trail))

/-- A new input with some text to read. -/
def newInput (text : Text) : Effect Channel := fun machine =>
  (.input machine.inputs.size, { machine with inputs := machine.inputs.push text })

/-- A new buffer, by its number. -/
def newBuffer : Effect Nat := fun machine =>
  (machine.buffers.size, { machine with buffers := machine.buffers.push [] })

end Effect
end RemoteBoot.Shell
