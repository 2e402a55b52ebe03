import RemoteBoot.Shell.Utilities.Operands

/-!
# Utilities for files

They make, remove, copy and move files.
-/

set_option autoImplicit false

namespace RemoteBoot.Shell.Utilities

open Effect

def makeDirectories (arguments : List Text) : Effect Nat := do
  for path in arguments.filter fun argument => argument.head? ≠ some '-' do
    modify fun machine =>
      let trail := (Path.mk path).place.trail
      let tree := machine.tree
      { machine with
        tree := { tree with
          directories := trail :: FileTree.parents trail ++ tree.directories } }
  pure 0

def removeFiles (arguments : List Text) : Effect Nat := do
  let (options, paths) := arguments.partition fun argument => argument.head? = some '-'
  let mut status := 0
  for path in paths do
    match ← writable path with
    | .error failure =>
      complain (fileMessage "rm" path failure)
      status := 1
    | .ok trail =>
      let machine ← get
      if (machine.tree.files.lookup trail).isSome then
        set { machine with tree := machine.tree.remove trail }
      else if options.isEmpty then
        complain (fileMessage "rm" path .noEntry)
        status := 1
  pure status

def touch (arguments : List Text) : Effect Nat := do
  let mut status := 0
  for path in arguments do
    match ← openOutput path true with
    | .ok _ => pure ()
    | .error failure =>
      complain (fileMessage "touch" path failure)
      status := 1
  pure status

/-- Copies a file, and removes the old one if it is moved. -/
def copyFile (utility : String) (moved : Bool) (arguments : List Text) : Effect Nat := do
  match arguments.filter fun argument => argument.head? ≠ some '-' with
  | [source, target] =>
    match ← readFile source with
    | .error failure =>
      complain (fileMessage utility source failure)
      pure 1
    | .ok text =>
      match ← writeFile target text with
      | .error failure =>
        complain (fileMessage utility target failure)
        pure 1
      | .ok () =>
        if moved then removeFiles ["-f".toList, source] else pure 0
  | _ => pure 1

end RemoteBoot.Shell.Utilities
