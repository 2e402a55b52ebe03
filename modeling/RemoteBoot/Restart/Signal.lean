import RemoteBoot.Remote.Engine

/-!
# Signals to the processor of a node

A message is sent by writing its word to the interrupt command register of the local interrupt
controller; nothing is read back.
-/

set_option autoImplicit false

namespace RemoteBoot.Restart

inductive Signal where
  | init
  | nmi
  /-- An external interrupt of a vector. -/
  | external (vector : UInt8)
  deriving DecidableEq, Repr

namespace Signal

/-- The interrupt command register as seen from the bus. -/
def register : Nat := 0xfee00000

def word : Signal → UInt32
  | .init => 0x500
  | .nmi => 0x400
  | .external vector => vector.toUInt32

def label : Signal → String
  | .init => "Init"
  | .nmi => "Nmi"
  | .external vector => "ExtInt(" ++ Numeral.decimal vector.toNat ++ ")"

def send {σ : Type} (remote : Remote σ) (signal : Signal) : Engine σ Unit := do
  Engine.note .debug .restart
    ("signal " ++ signal.label ++ " (" ++ Numeral.hex signal.word.toNat ++ ")")
  remote.storeWord register signal.word

end Signal
end RemoteBoot.Restart
