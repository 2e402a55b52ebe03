import RemoteBoot.Multiboot.ControlBlock
import RemoteBoot.Multiboot.Module
import RemoteBoot.Text.Blank

/-!
# Placing modules and arming the agent

The agent waits for the module count of its control block to change.  Everything it looks at then
has to be in memory before: payloads, descriptor block, flags, address of the descriptors.  So the
count is the last write.  A loader is idle until the first module is pushed and armed once the
count is written; an armed loader refuses everything.
-/

set_option autoImplicit false

namespace RemoteBoot.Multiboot

variable {σ : Type}

inductive Phase where
  | idle
  | pushing
  | armed
  deriving DecidableEq, Repr

structure Loader where
  controlBlock : Nat
  phase : Phase
  /-- Where the next module goes. -/
  cursor : Nat
  modules : List Module
  deriving DecidableEq, Repr

namespace Loader

def defaultAddress : Nat := 0x1000000

/-- Modules start at multiples of this after another module. -/
def alignment : Nat := 0x1000

/-- The least multiple of a step that is not below a value. -/
def alignUp (step value : Nat) : Except Stop Nat := do
  let beyond ← Checked.sum value step
  pure ((beyond - 1) / step * step)

/-- Starts against a control block that is there and lists no modules. -/
def begin (remote : Remote σ) (controlBlock cursor : Nat) : Engine σ Loader := do
  if controlBlock = 0 then
    Engine.fail .magicMissing
  else
    let block ← ControlBlock.fetch remote controlBlock
    if block.modsCount ≠ 0 then
      Engine.fail (.alreadyBooted block.modsCount)
    else
      pure ⟨controlBlock, .idle, cursor, []⟩

/-- Where the descriptor block goes. -/
def descriptorAddress (loader : Loader) : Except Stop Nat :=
  Checked.sum loader.controlBlock 0x4000

def descriptorBlock (loader : Loader) : Except Stop Bytes := do
  let base ← loader.descriptorAddress
  Module.block base loader.modules

def ensureOpen (loader : Loader) : Except Fault Unit :=
  if loader.phase = .armed then .error .alreadyArmed else .ok ()

/-- Moves the cursor and pushes nothing. -/
def setAddress (loader : Loader) (address : Nat) : Engine σ Loader := do
  Engine.ofExcept loader.ensureOpen
  Engine.note .debug .loader ("load address " ++ Numeral.hex address)
  pure { loader with cursor := address }

/-- The note of a pushed module; `index` counts from 0. -/
def moduleNote (index : Nat) (module : Module) : String :=
  "mod[" ++ String.ofList (Numeral.padLeft 2 '0' (Numeral.render 10 index)) ++ "] "
    ++ String.ofList (Numeral.padRight 60 (Blank.firstWord module.commandLine)) ++ " ["
    ++ Numeral.bareHex 8 module.start ++ " - " ++ Numeral.bareHex 8 module.stop ++ "]"

/-- The loader after a module was written; the next one goes to the cursor. -/
def accept (loader : Loader) (module : Module) (cursor : Nat) : Loader :=
  { loader with
    modules := loader.modules ++ [module]
    cursor
    phase := .pushing }

/-- Writes a payload at the cursor. -/
def push (remote : Remote σ) (loader : Loader) (payload : Bytes) (commandLine : Text) :
    Engine σ (Loader × Module) := do
  Engine.ofExcept loader.ensureOpen
  let _ ← Engine.ofExcept (narrow loader.cursor)
  let stop ← Engine.ofChecked (Checked.sum loader.cursor payload.length)
  let _ ← Engine.ofExcept (narrow stop)
  let module : Module := ⟨loader.cursor, stop, commandLine⟩
  remote.store module.start payload
  Engine.note .info .loader (moduleNote loader.modules.length module)
  let cursor ← Engine.ofChecked (alignUp alignment module.stop)
  pure (loader.accept module cursor, module)

/-- Publishes the modules: descriptor block, flags, address of the descriptors, module count.  The
words of the control block lie in front of the descriptor block, whose address is formed first. -/
def arm (remote : Remote σ) (loader : Loader) : Engine σ Loader := do
  match loader.phase with
  | .armed => Engine.fail .alreadyArmed
  | .idle => Engine.fail .noModules
  | .pushing =>
    let base ← Engine.ofChecked loader.descriptorAddress
    let block ← Engine.ofChecked loader.descriptorBlock
    Engine.note .info .loader ("add modules at " ++ Numeral.hex base)
    remote.store base block
    let control ← ControlBlock.fetch remote loader.controlBlock
    remote.storeWord (loader.controlBlock + ControlBlock.flagsOffset) control.withMods.flags
    let address ← Engine.ofExcept (narrow base)
    remote.storeWord (loader.controlBlock + ControlBlock.modsAddressOffset) address
    Engine.note .info .loader "Boot!"
    let count := UInt32.ofNat loader.modules.length
    remote.storeWord (loader.controlBlock + ControlBlock.modsCountOffset) count
    if count = 1 then
      Engine.note .warn .loader "only one module loaded; the node may have been running already"
    pure { loader with phase := .armed }

end Loader
end RemoteBoot.Multiboot
