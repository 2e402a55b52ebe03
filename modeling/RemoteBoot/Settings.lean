import RemoteBoot.Journal
import RemoteBoot.Json.Reader
import RemoteBoot.Json.Record
import RemoteBoot.Multiboot.Loader
import RemoteBoot.Restart.Controller

/-!
# Settings of the host

Settings are read from a JSON text that overrides defaults field by field, the fields of the bus
program apart from the others.  A block of no bytes is refused.
-/

set_option autoImplicit false

namespace RemoteBoot

/-- How the bus program is called. -/
structure BusSettings where
  program : Text := "fwcat".toList
  node : UInt32 := 0
  blockSize : UInt32 := 2048
  deriving DecidableEq, Repr

structure Settings where
  /-- The base of relative manifest paths. -/
  bootDirectory : Path := .ofString "/boot"
  /-- The image of the hypervisor that a restart uses. -/
  hypervisor : Path := .ofString "/boot/hypervisor"
  bus : BusSettings := {}
  loadAddress : Nat := Multiboot.Loader.defaultAddress
  pollMilliseconds : Nat := 1000
  tableSymbol : Text := Restart.Controller.defaultTableSymbol
  resetSymbol : Text := Restart.Controller.defaultResetSymbol
  threshold : Text := "info".toList
  deriving DecidableEq, Repr

namespace BusSettings

def fields : List (Json.Field BusSettings) := [
  ⟨"program".toList, fun value settings => do
    let program ← Json.text? value
    some { settings with program }⟩,
  ⟨"node".toList, fun value settings => do
    let node ← Json.below? 0x100000000 value
    some { settings with node := UInt32.ofNat node }⟩,
  ⟨"block_size".toList, fun value settings => do
    let size ← Json.below? 0x100000000 value
    some { settings with blockSize := UInt32.ofNat size }⟩]

end BusSettings

namespace Settings

def fields : List (Json.Field Settings) := [
  ⟨"boot_dir".toList, fun value settings => do
    let spelling ← Json.text? value
    some { settings with bootDirectory := ⟨spelling⟩ }⟩,
  ⟨"hypervisor".toList, fun value settings => do
    let spelling ← Json.text? value
    some { settings with hypervisor := ⟨spelling⟩ }⟩,
  ⟨"transport".toList, fun value settings => do
    let bus ← Json.record? BusSettings.fields {} value
    some { settings with bus }⟩,
  ⟨"initial_load_address".toList, fun value settings => do
    let loadAddress ← Json.below? 0x10000000000000000 value
    some { settings with loadAddress }⟩,
  ⟨"poll_interval_ms".toList, fun value settings => do
    let pollMilliseconds ← Json.below? 0x10000000000000000 value
    some { settings with pollMilliseconds }⟩,
  ⟨"idt_symbol".toList, fun value settings => do
    let tableSymbol ← Json.text? value
    some { settings with tableSymbol }⟩,
  ⟨"reset_symbol".toList, fun value settings => do
    let resetSymbol ← Json.text? value
    some { settings with resetSymbol }⟩,
  ⟨"log_level".toList, fun value settings => do
    let threshold ← Json.text? value
    some { settings with threshold }⟩]

/-- Why a text gives no settings. -/
inductive Rejection where
  | malformed
  | emptyBlocks
  deriving DecidableEq, Repr

def Rejection.message : Rejection → String
  | .malformed => "not a settings record"
  | .emptyBlocks => "transport.block_size must be non-zero"

/-- The settings that a text gives. -/
def ofText (text : Text) : Except Rejection Settings :=
  match (Json.ofText? text).bind (Json.record? fields {}) with
  | none => .error .malformed
  | some settings => if settings.bus.blockSize = 0 then .error .emptyBlocks else .ok settings

/-- The notes that are shown; an unknown name means `info`. -/
def shownLevel (settings : Settings) : Threshold :=
  (Threshold.ofName? settings.threshold).getD (some .info)

/-- Settings from the contents of a file. -/
def ofFile (path : Path) (contents : Except ReadFailure Bytes) : Except Fault Settings :=
  let fault (reason : String) : Fault := .settings (path.toString ++ ": " ++ reason)
  match contents with
  | .error failure => .error (fault failure.message)
  | .ok bytes =>
    match Utf8.decode bytes with
    | .error _ => .error (fault "stream did not contain valid UTF-8")
    | .ok text =>
      match ofText text with
      | .ok settings => .ok settings
      | .error rejection => .error (fault rejection.message)

end Settings
end RemoteBoot
