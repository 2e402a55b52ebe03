import RemoteBoot.Journal
import RemoteBoot.Word

/-!
# Actions on a remote node

An action starts from the state of a node and ends with a result, the node afterwards and the notes
it made.  A stopped action keeps what it did and noted until then.  `Remote` is byte-addressable
access to such a node: every transfer may change the node and may fail, and a read may return fewer
bytes than it was asked for.
-/

set_option autoImplicit false

namespace RemoteBoot

/-- What an action leaves. -/
structure Outcome (σ α : Type) where
  result : Except Stop α
  node : σ
  notes : List Note

/-- An action on a node whose state is a `σ`. -/
def Engine (σ α : Type) : Type :=
  σ → Outcome σ α

namespace Engine

variable {σ α β : Type}

protected def pure (value : α) : Engine σ α := fun node =>
  ⟨.ok value, node, []⟩

/-- The second action starts from the node that the first one left. -/
protected def bind (first : Engine σ α) (next : α → Engine σ β) : Engine σ β := fun node =>
  let outcome := first node
  match outcome.result with
  | .ok value =>
    let rest := next value outcome.node
    ⟨rest.result, rest.node, outcome.notes ++ rest.notes⟩
  | .error stop => ⟨.error stop, outcome.node, outcome.notes⟩

instance : Monad (Engine σ) where
  pure := Engine.pure
  bind := Engine.bind

def fail (fault : Fault) : Engine σ α := fun node =>
  ⟨.error (.fault fault), node, []⟩

def crash (crash : Crash) : Engine σ α := fun node =>
  ⟨.error (.crash crash), node, []⟩

def note (level : Level) (origin : Origin) (text : String) : Engine σ Unit := fun node =>
  ⟨.ok (), node, [⟨level, origin, text⟩]⟩

/-- Runs a computation that reads no node. -/
def ofNoted (computation : Noted α) : Engine σ α := fun node =>
  ⟨computation.result, node, computation.notes⟩

def ofExcept (result : Except Fault α) : Engine σ α :=
  match result with
  | .ok value => Engine.pure value
  | .error fault => fail fault

/-- Goes on with a result that may be a crash, such as that of a sum. -/
def ofChecked (result : Except Stop α) : Engine σ α := fun node =>
  ⟨result, node, []⟩

/-- Runs an action and hands a fault of it to the caller; a crash is not caught. -/
def attempt (action : Engine σ α) : Engine σ (Except Fault α) := fun node =>
  let outcome := action node
  match outcome.result with
  | .ok value => ⟨.ok (.ok value), outcome.node, outcome.notes⟩
  | .error (.fault fault) => ⟨.ok (.error fault), outcome.node, outcome.notes⟩
  | .error (.crash crash) => ⟨.error (.crash crash), outcome.node, outcome.notes⟩

/-- The state of the node at this point. -/
def look : Engine σ σ := fun node =>
  ⟨.ok node, node, []⟩

theorem pure_apply (value : α) (node : σ) :
    (pure value : Engine σ α) node = ⟨.ok value, node, []⟩ := rfl

theorem bind_apply (first : Engine σ α) (next : α → Engine σ β) (node : σ) :
    (first >>= next) node =
      match (first node).result with
      | .ok value =>
        ⟨(next value (first node).node).result, (next value (first node).node).node,
          (first node).notes ++ (next value (first node).node).notes⟩
      | .error stop => ⟨.error stop, (first node).node, (first node).notes⟩ := rfl

end Engine

/-- What one transfer leaves. -/
structure Transfer (σ α : Type) where
  result : Except Stop α
  node : σ
  notes : List Note := []

/-- Byte-addressable access to the memory of a node. -/
structure Remote (σ : Type) where
  /-- Reads a number of bytes from an address on. -/
  read : Nat → Nat → σ → Transfer σ Bytes
  /-- Writes bytes from an address on. -/
  write : Nat → Bytes → σ → Transfer σ Unit

namespace Transfer

variable {σ α : Type}

def toEngine (transfer : σ → Transfer σ α) : Engine σ α := fun node =>
  let left := transfer node
  ⟨left.result, left.node, left.notes⟩

end Transfer

namespace Remote

variable {σ : Type}

def fetch (remote : Remote σ) (address length : Nat) : Engine σ Bytes :=
  Transfer.toEngine (remote.read address length)

def store (remote : Remote σ) (address : Nat) (bytes : Bytes) : Engine σ Unit :=
  Transfer.toEngine (remote.write address bytes)

/-- Reads one little-endian word; the address must be a multiple of four. -/
def fetchWord (remote : Remote σ) (address : Nat) : Engine σ UInt32 := do
  if address % 4 ≠ 0 then
    Engine.crash (.misaligned address)
  else
    let bytes ← remote.fetch address 4
    if bytes.length = 4 then
      pure (Word.ofBytes bytes)
    else
      Engine.fail (.shortTransfer "read" address 4 bytes.length)

/-- Writes one little-endian word; the address must be a multiple of four. -/
def storeWord (remote : Remote σ) (address : Nat) (word : UInt32) : Engine σ Unit :=
  if address % 4 ≠ 0 then
    Engine.crash (.misaligned address)
  else
    remote.store address (Word.bytes word)

end Remote
end RemoteBoot
