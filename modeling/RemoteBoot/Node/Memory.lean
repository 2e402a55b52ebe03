import RemoteBoot.Word

/-!
# Node memory

Memory is a byte at every address.  Storing bytes changes the addresses they cover and no other;
reading is looking at consecutive addresses.
-/

set_option autoImplicit false

namespace RemoteBoot

@[ext]
structure Memory where
  byteAt : Nat → Byte

namespace Memory

/-- Memory that was never written. -/
def blank : Memory := ⟨fun _ => 0⟩

/-- Memory after bytes were stored from an address on. -/
def store (memory : Memory) (address : Nat) (bytes : Bytes) : Memory :=
  let stored := bytes.toArray
  ⟨fun place =>
    if place < address then memory.byteAt place
    else
      match stored[place - address]? with
      | some byte => byte
      | none => memory.byteAt place⟩

/-- A number of bytes from an address on. -/
def peek (memory : Memory) (address length : Nat) : Bytes :=
  (List.range length).map fun offset => memory.byteAt (address + offset)

def peekWord (memory : Memory) (address : Nat) : UInt32 :=
  Word.ofBytes (memory.peek address 4)

theorem length_peek (memory : Memory) (address length : Nat) :
    (memory.peek address length).length = length := by
  simp [peek]

/-- A covered address holds the stored byte. -/
theorem byteAt_store_inside (memory : Memory) {address offset : Nat} {bytes : Bytes}
    (inside : offset < bytes.length) :
    (memory.store address bytes).byteAt (address + offset) = bytes[offset] := by
  have start : ¬ address + offset < address := by omega
  simp [store, start, inside]

/-- An address that is not covered keeps its byte. -/
theorem byteAt_store_outside (memory : Memory) {address place : Nat} {bytes : Bytes}
    (outside : place < address ∨ address + bytes.length ≤ place) :
    (memory.store address bytes).byteAt place = memory.byteAt place := by
  rcases outside with before | behind
  · simp [store, before]
  · have start : ¬ place < address := by omega
    have past : bytes[place - address]? = none := List.getElem?_eq_none (by omega)
    simp [store, start, past]

end Memory
end RemoteBoot
