import RemoteBoot.Manifest.Expansion
import RemoteBoot.Multiboot.Loader
import RemoteBoot.Rom.Discovery

/-!
# One boot of an idle agent

A session finds the agent, reads the manifest, pushes the files that it names and arms the agent.
Whatever can be checked without writing is checked first: identity, control block and the complete
manifest.  `runLive` reads the files as the host holds them at each moment; `run` reads from files
that do not change.
-/

set_option autoImplicit false

namespace RemoteBoot.Boot

open Multiboot

variable {σ : Type}

/-- What a finished session put into the node. -/
structure Report where
  controlBlock : Nat
  modules : List Module
  deriving DecidableEq, Repr

/-- Carries out one step of the manifest. -/
def place (remote : Remote σ) (files : σ → FileSource) (loader : Loader) :
    Manifest.Entry → Engine σ Loader
  | .address address => loader.setAddress address
  | .load file commandLine => do
    match (files (← Engine.look)).read file with
    | .error failure => Engine.fail (.manifest file (.unreadable failure))
    | .ok payload => do
      let (loader, _) ← loader.push remote payload commandLine
      pure loader

/-- Carries out the steps of the manifest in order. -/
def placeAll (remote : Remote σ) (files : σ → FileSource) :
    Loader → List Manifest.Entry → Engine σ Loader
  | loader, [] => pure loader
  | loader, entry :: entries => do
    let loader ← place remote files loader entry
    placeAll remote files loader entries

/-- Checks the agent and begins at its control block. -/
def prepare (remote : Remote σ) (cursor : Nat) : Engine σ Loader := do
  let discovery ← Rom.discover remote
  let _ ← Engine.ofExcept discovery.ensureAgent
  let controlBlock ← Rom.controlBlockAddress remote
  Engine.note .info .session ("MBI: " ++ Numeral.hex controlBlock)
  Loader.begin remote controlBlock cursor

/-- One session with the files that the host holds at each moment. -/
def runLive (remote : Remote σ) (files : σ → FileSource) (manifest root : Path) (cursor : Nat) :
    Engine σ Report := do
  let loader ← prepare remote cursor
  let entries ← Engine.ofNoted (Manifest.parse (files (← Engine.look)) manifest root)
  Engine.note .debug .session (Numeral.decimal entries.length ++ " manifest entries")
  let loader ← placeAll remote files loader entries
  let loader ← loader.arm remote
  pure ⟨loader.controlBlock, loader.modules⟩

/-- One session with files that do not change. -/
def run (remote : Remote σ) (source : FileSource) (manifest root : Path) (cursor : Nat) :
    Engine σ Report :=
  runLive remote (fun _ => source) manifest root cursor

end RemoteBoot.Boot
