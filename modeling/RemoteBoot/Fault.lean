import RemoteBoot.Path.Basic
import RemoteBoot.Text.Utf8

/-!
# Faults

What can go wrong, by cause.  A fault is reported to whoever asked and has a message, a stable code
and at most one kind of it is worth a retry.  A crash is a broken precondition: nothing after it
runs, and what was done to the node before it stays.
-/

set_option autoImplicit false

namespace RemoteBoot

/-- Why a file could not be read. -/
inductive ReadFailure where
  /-- No file of this spelling. -/
  | missing (path : Path)
  /-- The file is there but is not text. -/
  | notText (defect : Utf8.Defect)
  /-- The host refused, in its own words. -/
  | refused (reason : String)
  deriving DecidableEq, Repr

def ReadFailure.message : ReadFailure → String
  | .missing path => path.toString
  | .notText defect => defect.message
  | .refused reason => reason

/-- Why a manifest was rejected. -/
inductive ManifestFault where
  | unreadable (failure : ReadFailure)
  | includeCycle (file : Path)
  | invalidAddress (text : Text)
  deriving DecidableEq, Repr

def ManifestFault.message : ManifestFault → String
  | .unreadable failure => "unreadable: " ++ failure.message
  | .includeCycle file => "include cycle through " ++ file.toString
  | .invalidAddress text => "invalid load address `" ++ String.ofList text ++ "`"

inductive Fault where
  /-- A transfer failed or moved the wrong number of bytes. -/
  | transport (command diagnostic : String)
  /-- A file is no usable image. -/
  | binary (name reason : String)
  | symbolNotFound (name : Text)
  /-- A virtual address outside every loadable segment. -/
  | unmappedAddress (address : Nat)
  /-- The node does not carry the agent's identity. -/
  | notAgent (vendor model : UInt32)
  /-- The control block lists modules already. -/
  | alreadyBooted (modules : UInt32)
  /-- The agent published no control block. -/
  | magicMissing
  | noModules
  | manifest (file : Path) (reason : ManifestFault)
  /-- An address that 32 bits cannot hold. -/
  | addressOutOfRange (address : Nat)
  | alreadyArmed
  | settings (reason : String)
  deriving DecidableEq, Repr

namespace Fault

/-- A transfer that moved fewer bytes than were asked for, or more. -/
def shortTransfer (operation : String) (address expected actual : Nat) : Fault :=
  .transport (operation ++ " " ++ Numeral.hex address)
    ("expected " ++ Numeral.decimal expected ++ " bytes, got " ++ Numeral.decimal actual)

def message : Fault → String
  | .transport command diagnostic =>
    "transport error: `" ++ command ++ "` failed: " ++ diagnostic
  | .binary name reason => "invalid binary " ++ name ++ ": " ++ reason
  | .symbolNotFound name => "symbol not found: " ++ String.ofList name
  | .unmappedAddress address =>
    "address " ++ Numeral.hex address ++ " is not covered by any loadable segment"
  | .notAgent vendor model =>
    "protocol assertion failed: not the expected agent (vendor "
      ++ Numeral.paddedHex 8 vendor.toNat ++ ", model " ++ Numeral.paddedHex 8 model.toNat ++ ")"
  | .alreadyBooted modules =>
    "protocol assertion failed: already booted (" ++ Numeral.decimal modules.toNat
      ++ " modules present)"
  | .magicMissing =>
    "protocol assertion failed: multiboot magic missing (agent published no control block)"
  | .noModules => "protocol assertion failed: no modules to boot"
  | .manifest file reason => "manifest " ++ file.toString ++ ": " ++ reason.message
  | .addressOutOfRange address => "address " ++ Numeral.hex address ++ " does not fit in 32 bits"
  | .alreadyArmed => "invalid state: session already armed"
  | .settings reason => "configuration error: " ++ reason

/-- The messages of what caused a fault, outermost first. -/
def causes : Fault → List String
  | .manifest _ reason =>
    match reason with
    | .unreadable failure => [reason.message, failure.message]
    | _ => [reason.message]
  | _ => []

/-- A number that stays the same between releases. -/
def code : Fault → Nat
  | .transport .. => 0x1000
  | .binary .. => 0x2000
  | .symbolNotFound _ => 0x2001
  | .unmappedAddress _ => 0x2002
  | .notAgent .. => 0x3000
  | .alreadyBooted _ => 0x3001
  | .magicMissing => 0x3002
  | .noModules => 0x3003
  | .manifest .. => 0x4000
  | .addressOutOfRange _ => 0x5000
  | .alreadyArmed => 0x5001
  | .settings _ => 0x6000

/-- Whether the condition may clear up on its own: the node may not be up yet. -/
def isRetryable : Fault → Bool
  | .transport .. => true
  | _ => false

end Fault

/-- A precondition that did not hold. -/
inductive Crash where
  /-- A word access at an address that is not a multiple of four. -/
  | misaligned (address : Nat)
  /-- More bytes of ROM than a 32-bit length can count. -/
  | lengthOverflow (quadlets : Nat)
  /-- An image whose headers point outside it or to misplaced tables. -/
  | brokenImage
  /-- A sum that 64 bits cannot hold. -/
  | sumOverflow
  /-- More bytes than a vector can hold. -/
  | capacityOverflow
  deriving DecidableEq, Repr

/-- How an action ends when it does not succeed. -/
inductive Stop where
  | fault (fault : Fault)
  | crash (crash : Crash)
  deriving DecidableEq, Repr

/-- A result that is a fault at worst. -/
def Stop.lift {α : Type} (result : Except Fault α) : Except Stop α :=
  result.mapError .fault

@[simp]
theorem Stop.lift_ok {α : Type} (value : α) : Stop.lift (.ok value) = .ok value := rfl

@[simp]
theorem Stop.lift_error {α : Type} (fault : Fault) :
    Stop.lift (.error fault : Except Fault α) = .error (.fault fault) := rfl

end RemoteBoot
