import RemoteBoot.Proofs.Boot.Disturbance

/-!
# The writes of a session

A session that succeeds writes every file of its manifest at its place, in the order of the
manifest, and then the descriptor block, the flags, the address of the descriptors and the number of
modules.  Whatever faults come in front of the node, the writes that reach it are a prefix of these.
-/

set_option autoImplicit false

namespace RemoteBoot.Boot

open Multiboot Node

/-- The files at their places, and behind them what publishes them to the agent.  The flags are
those that stand at the head of the control block when all files are written. -/
def trace (source : FileSource) (placements : List Placement) (memory : Memory)
    (controlBlock : Nat) (block : Bytes) : List Write :=
  placements.map (Placement.write source) ++
    [⟨controlBlock + 0x4000, block⟩,
      ⟨controlBlock, Word.bytes
        ((memory.replay (placements.map (Placement.write source))).peekWord controlBlock
          ||| Flag.mods)⟩,
      ⟨controlBlock + 24, Word.bytes (UInt32.ofNat (controlBlock + 0x4000))⟩,
      ⟨controlBlock + 20, Word.bytes (UInt32.ofNat placements.length)⟩]

section Trace

variable {node : Node} {source : FileSource} {manifest root : Path} {cursor : Nat}

theorem trace_of_readies {after : Loader} {block : Bytes}
    (readied : Readies node source manifest root cursor after block) :
    (plan source manifest root cursor).map (Placement.write source) ++
        after.publication
          (node.memory.replay ((plan source manifest root cursor).map (Placement.write source)))
          block ++ [after.goSignal] =
      trace source (plan source manifest root cursor) node.memory after.controlBlock block := by
  rw [trace, List.append_assoc, Loader.arming_eq, readied.modules, List.length_map]

end Trace

/-- A manifest of two files, the second at an address of its own. -/
def twoFiles : FileSource :=
  (MemoryFiles.ofList [
    (.ofString "/boot/a.conf", Utf8.encode "load k one\naddr 200000\nload m\n".toList),
    (.ofString "/boot/k", [1, 2, 3]),
    (.ofString "/boot/m", [4])]).source

def twoModules : Report :=
  ⟨0x9f000, [⟨0x1000000, 0x1000003, "k one".toList⟩, ⟨0x200000, 0x200001, "m".toList⟩]⟩

theorem two_files_boot :
    (run remote twoFiles (.ofString "a.conf") (.ofString "/boot") 0x1000000
      (withAgent 0x9f000)).result = .ok twoModules :=
  ok_of_to_option (by decide +kernel)

end RemoteBoot.Boot
