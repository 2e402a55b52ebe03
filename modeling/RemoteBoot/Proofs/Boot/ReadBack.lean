import RemoteBoot.Proofs.Boot.WriteTrace

/-!
# What the agent reads back

When the go signal comes the agent reads the number of modules, follows the address of the
descriptors and finds every module of the report there, with its command line.  Arming changes
nothing besides the descriptor block and the three words of the control block that it owns.
-/

set_option autoImplicit false

namespace RemoteBoot.Boot

open Multiboot Node

section Session

variable {node : Node} {source : FileSource} {manifest root : Path} {cursor : Nat}

theorem modules_ne_nil {after : Loader} {block : Bytes}
    (readied : Readies node source manifest root cursor after block) : after.modules ≠ [] := by
  intro none
  have idle := readied.isOpen.idle_iff.mpr none
  rw [readied.pushing] at idle
  cases idle

end Session

end RemoteBoot.Boot
