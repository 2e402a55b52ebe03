import RemoteBoot.Proofs.Remote.Crashes

/-!
# Transfers over the last address

Addresses have 64 bits.  `below` leaves every transfer that reaches over the last of them to another
remote, which may do anything.  An action whose transfers all end below it does not depend on that
remote.  `Yields` carries the bounds of what an action returns to what follows it.
-/

set_option autoImplicit false

namespace RemoteBoot

open Multiboot

variable {σ α β : Type}

namespace Remote

/-- Access to a node with addresses of 64 bits; `beyond` makes the transfers that reach too far. -/
def below (remote beyond : Remote σ) : Remote σ where
  read address length :=
    if address + length < 0x10000000000000000 then remote.read address length
    else beyond.read address length
  write address bytes :=
    if address + bytes.length < 0x10000000000000000 then remote.write address bytes
    else beyond.write address bytes

variable (remote beyond : Remote σ)

theorem fetch_below {address length : Nat} (fits : address + length < 0x10000000000000000) :
    (remote.below beyond).fetch address length = remote.fetch address length := by
  simp only [fetch, below, if_pos fits]

theorem store_below {address : Nat} {bytes : Bytes}
    (fits : address + bytes.length < 0x10000000000000000) :
    (remote.below beyond).store address bytes = remote.store address bytes := by
  simp only [store, below, if_pos fits]

theorem store_word_below {address : Nat} (fits : address + 4 < 0x10000000000000000)
    (word : UInt32) :
    (remote.below beyond).storeWord address word = remote.storeWord address word := by
  unfold storeWord
  rw [remote.store_below beyond (by rw [Word.length_bytes]; exact fits)]

theorem fetch_control_block_below {address : Nat}
    (fits : address + ControlBlock.size < 0x10000000000000000) :
    ControlBlock.fetch (remote.below beyond) address = ControlBlock.fetch remote address := by
  unfold ControlBlock.fetch
  rw [remote.fetch_below beyond fits]

theorem read_quadlet_below {index : Nat}
    (fits : Rom.quadletAddress index + 4 < 0x10000000000000000) :
    Rom.readQuadlet (remote.below beyond) index = Rom.readQuadlet remote index := by
  unfold Rom.readQuadlet
  rw [remote.fetch_below beyond fits]

theorem discover_below : Rom.discover (remote.below beyond) = Rom.discover remote := by
  unfold Rom.discover Rom.readIdentity
  rw [remote.read_quadlet_below beyond (by decide), remote.read_quadlet_below beyond (by decide)]

theorem control_block_address_below :
    Rom.controlBlockAddress (remote.below beyond) = Rom.controlBlockAddress remote := by
  unfold Rom.controlBlockAddress
  rw [remote.read_quadlet_below beyond (by decide)]

end Remote

/-- What the action returns, if it returns, has a property. -/
structure Yields (property : α → Prop) (action : Engine σ α) : Prop where
  own : ∀ node value, (action node).result = .ok value → property value

namespace Yields

variable {property : α → Prop} {further : β → Prop}

theorem pure {value : α} (holds : property value) :
    Yields property (pure value : Engine σ α) := by
  constructor
  intro node other returned
  cases returned
  exact holds

theorem fail (fault : Fault) : Yields property (Engine.fail fault : Engine σ α) := by
  constructor
  intro node value returned
  cases returned

theorem of_except {result : Except Fault α} (own : ∀ value, result = .ok value → property value) :
    Yields property (Engine.ofExcept result : Engine σ α) := by
  cases result with
  | ok value => exact pure (own value rfl)
  | error fault => exact fail fault

theorem of_checked {result : Except Stop α} (own : ∀ value, result = .ok value → property value) :
    Yields property (Engine.ofChecked result : Engine σ α) :=
  ⟨fun _ => own⟩

theorem of_noted {computation : Noted α}
    (own : ∀ value, computation.result = .ok value → property value) :
    Yields property (Engine.ofNoted computation : Engine σ α) :=
  ⟨fun _ => own⟩

theorem bind {first : Engine σ α} {next : α → Engine σ β} (begins : Yields property first)
    (rest : ∀ value, property value → Yields further (next value)) :
    Yields further (first >>= next) := by
  constructor
  intro node value returned
  obtain ⟨middle, reached, continued, _⟩ := Engine.ok_of_bind returned
  exact (rest middle (begins.own node middle reached)).own _ value continued

theorem then_any {first : Engine σ α} {next : α → Engine σ β}
    (rest : ∀ value, Yields further (next value)) : Yields further (first >>= next) := by
  have begins : Yields (fun _ => True) first := ⟨fun _ _ _ => trivial⟩
  exact begins.bind fun value _ => rest value

/-- What follows an action only has to agree on what the action returns. -/
theorem bind_congr {first : Engine σ α} {next other : α → Engine σ β}
    (begins : Yields property first) (alike : ∀ value, property value → next value = other value) :
    (first >>= next) = (first >>= other) := by
  funext node
  rw [Engine.bind_apply, Engine.bind_apply]
  cases reached : (first node).result with
  | error stop => rfl
  | ok value => simp only [alike value (begins.own node value reached)]

/-- The address of the control block has 32 bits. -/
theorem control_block_address (remote : Remote σ) :
    Yields (· < 0x100000000) (Rom.controlBlockAddress remote) := by
  apply then_any
  intro quadlet
  exact pure quadlet.toNat_lt

end Yields

/-- A crash behind an action is one behind some value that the action may return. -/
theorem Trips.bind_of_yields {allowed : Crash → Prop} {property : α → Prop} {first : Engine σ α}
    {next : α → Engine σ β} (begins : Trips allowed first) (yields : Yields property first)
    (rest : ∀ value, property value → Trips allowed (next value)) :
    Trips allowed (first >>= next) := by
  constructor
  intro node crash stopped
  cases reached : (first node).result with
  | ok value =>
      rw [(Engine.bind_of_ok next reached).1] at stopped
      exact (rest value (yields.own node value reached)).own _ crash stopped
  | error stop =>
      rw [(Engine.bind_of_error next reached).1] at stopped
      cases stopped
      exact begins.own node crash reached

end RemoteBoot
