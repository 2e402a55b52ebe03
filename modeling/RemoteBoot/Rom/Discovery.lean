import RemoteBoot.Remote.Engine
import RemoteBoot.Rom.Layout

/-!
# Finding the boot agent

A probe reads the vendor and the model entry.  The node may not be powered yet, so a failed transfer
means that no agent was found and is not reported.  Waiting probes again until an agent answers, up
to a number of probes.
-/

set_option autoImplicit false

namespace RemoteBoot.Rom

variable {σ : Type}

/-- What one probe found; both ids are 0 if the node did not answer. -/
structure Discovery where
  vendor : UInt32
  model : UInt32
  deriving DecidableEq, Repr

def Discovery.isAgent (discovery : Discovery) : Bool :=
  discovery.vendor == agentVendor && discovery.model == agentModel

/-- Turns a negative probe into a fault. -/
def Discovery.ensureAgent (discovery : Discovery) : Except Fault Discovery :=
  if discovery.isAgent then .ok discovery
  else .error (.notAgent discovery.vendor discovery.model)

def readQuadlet (remote : Remote σ) (index : Nat) : Engine σ UInt32 := do
  let bytes ← remote.fetch (quadletAddress index) 4
  if bytes.length = 4 then
    pure (Word.ofQuadletBytes bytes)
  else
    Engine.fail (.shortTransfer "read" (quadletAddress index) 4 bytes.length)

def readIdentity (remote : Remote σ) : Engine σ Discovery := do
  let vendor ← readQuadlet remote vendorIndex
  let model ← readQuadlet remote modelIndex
  pure ⟨entryValue vendor, entryValue model⟩

/-- One probe. -/
def discover (remote : Remote σ) : Engine σ Discovery := do
  match ← Engine.attempt (readIdentity remote) with
  | .ok discovery => pure discovery
  | .error fault =>
    Engine.note .debug .rom ("discovery probe failed: " ++ fault.message)
    pure ⟨0, 0⟩

/-- The address of the agent's control block.  The agent publishes it anew after every restart. -/
def controlBlockAddress (remote : Remote σ) : Engine σ Nat := do
  let quadlet ← readQuadlet remote controlBlockIndex
  pure quadlet.toNat

/-- Probes until an agent answers, at most so many times. -/
def waitForAgent (remote : Remote σ) : Nat → Engine σ (Option Discovery)
  | 0 => pure none
  | probes + 1 => do
    let discovery ← discover remote
    if discovery.isAgent then
      pure (some discovery)
    else
      Engine.note .debug .rom
        ("no agent yet (vendor " ++ Numeral.paddedHex 8 discovery.vendor.toNat ++ ", model "
          ++ Numeral.paddedHex 8 discovery.model.toNat ++ ")")
      waitForAgent remote probes

/-- Bytes as quadlets; bytes behind the last whole quadlet are dropped. -/
def quadlets : Bytes → List UInt32
  | a :: b :: c :: d :: rest => Word.ofQuadletBytes [a, b, c, d] :: quadlets rest
  | _ => []

/-- The first quadlets of the ROM.  Their length in bytes is counted in 32 bits. -/
def readRom (remote : Remote σ) (count : Nat) : Engine σ (List UInt32) :=
  if count * 4 < 0x100000000 then do
    let bytes ← remote.fetch base (count * 4)
    pure (quadlets bytes)
  else
    Engine.crash (.lengthOverflow count)

end RemoteBoot.Rom
