import RemoteBoot.Multiboot.Loader

/-!
# A loader in its place

A caller that goes on behind a fault holds one loader beside the node and has it changed in place,
field by field.  An operation that stops leaves the fields as they are at that point.  A request is
an operation as data, together with what it works on.
-/

set_option autoImplicit false

namespace RemoteBoot.Multiboot

/-- A loader beside the node that it works on. -/
structure Held (σ : Type) where
  node : σ
  loader : Loader

inductive Request where
  | setAddress (address : Nat)
  | push (payload : Bytes) (commandLine : Text)
  | arm
  deriving DecidableEq, Repr

/-- What a request gives if it succeeds. -/
inductive Reply where
  | moved
  | pushed (module : Module)
  | armed
  deriving DecidableEq, Repr

namespace Held

variable {σ α : Type}

/-- Does something to the node and leaves the loader alone. -/
def onNode (action : Engine σ α) : Engine (Held σ) α := fun held =>
  let left := action held.node
  ⟨left.result, { held with node := left.node }, left.notes⟩

/-- The loader at this point. -/
def current : Engine (Held σ) Loader := fun held =>
  ⟨.ok held.loader, held, []⟩

def assign (change : Loader → Loader) : Engine (Held σ) Unit := fun held =>
  ⟨.ok (), { held with loader := change held.loader }, []⟩

/-- Moves the cursor and pushes nothing. -/
def setAddress (address : Nat) : Engine (Held σ) Unit := do
  let loader ← current
  Engine.ofExcept loader.ensureOpen
  Engine.note .debug .loader ("load address " ++ Numeral.hex address)
  assign fun loader => { loader with cursor := address }

/-- Writes a payload at the cursor. -/
def push (remote : Remote σ) (payload : Bytes) (commandLine : Text) :
    Engine (Held σ) Module := do
  let loader ← current
  Engine.ofExcept loader.ensureOpen
  let _ ← Engine.ofExcept (narrow loader.cursor)
  let stop ← Engine.ofChecked (Checked.sum loader.cursor payload.length)
  let _ ← Engine.ofExcept (narrow stop)
  let module : Module := ⟨loader.cursor, stop, commandLine⟩
  onNode (remote.store module.start payload)
  Engine.note .info .loader (Loader.moduleNote loader.modules.length module)
  assign fun loader => { loader with modules := loader.modules ++ [module] }
  let cursor ← Engine.ofChecked (Loader.alignUp Loader.alignment module.stop)
  assign fun loader => { loader with cursor }
  assign fun loader => { loader with phase := .pushing }
  pure module

/-- Publishes the modules and gives the go signal. -/
def arm (remote : Remote σ) : Engine (Held σ) Unit := do
  let loader ← current
  match loader.phase with
  | .armed => Engine.fail .alreadyArmed
  | .idle => Engine.fail .noModules
  | .pushing =>
    let base ← Engine.ofChecked loader.descriptorAddress
    let block ← Engine.ofChecked loader.descriptorBlock
    Engine.note .info .loader ("add modules at " ++ Numeral.hex base)
    onNode (remote.store base block)
    let control ← onNode (ControlBlock.fetch remote loader.controlBlock)
    onNode (remote.storeWord (loader.controlBlock + ControlBlock.flagsOffset)
      control.withMods.flags)
    let address ← Engine.ofExcept (narrow base)
    onNode (remote.storeWord (loader.controlBlock + ControlBlock.modsAddressOffset) address)
    Engine.note .info .loader "Boot!"
    let count := UInt32.ofNat loader.modules.length
    onNode (remote.storeWord (loader.controlBlock + ControlBlock.modsCountOffset) count)
    assign fun loader => { loader with phase := .armed }
    if count = 1 then
      Engine.note .warn .loader "only one module loaded; the node may have been running already"

def perform (remote : Remote σ) : Request → Engine (Held σ) Reply
  | .setAddress address => do
    setAddress address
    pure .moved
  | .push payload commandLine => do
    let module ← push remote payload commandLine
    pure (.pushed module)
  | .arm => do
    arm remote
    pure .armed

end Held
end RemoteBoot.Multiboot
