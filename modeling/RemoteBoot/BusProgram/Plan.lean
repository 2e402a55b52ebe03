import RemoteBoot.Checked

/-!
# Splitting a transfer

A transfer is made of blocks of one size, as many as fit, and a tail.  The bus program is told a
block size and a block count, and the count is kept in 32 bits.
-/

set_option autoImplicit false

namespace RemoteBoot.BusProgram

/-- One call of the bus program. -/
structure Span where
  address : Nat
  blockSize : Nat
  blockCount : Nat
  deriving DecidableEq, Repr

namespace Span

def length (span : Span) : Nat :=
  span.blockSize * span.blockCount

def isEmpty (span : Span) : Bool :=
  span.length == 0

end Span

/-- The calls for a number of bytes from an address on; a block has at least one byte. -/
def plan (blockSize address length : Nat) : Except Stop (List Span) :=
  let block := min (max blockSize 1) length
  if block = 0 then .ok []
  else
    let count := length / block
    let tail := length % block
    let bulk : Span := ⟨address, block, count % 0x100000000⟩
    if tail = 0 then .ok [bulk]
    else (Checked.sum address (count * block)).map fun behind => [bulk, ⟨behind, tail, 1⟩]

end RemoteBoot.BusProgram
