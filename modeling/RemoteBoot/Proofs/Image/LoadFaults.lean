import RemoteBoot.Proofs.Image.Loading
import RemoteBoot.Proofs.Remote.WriteFaults

/-!
# How loading fails

An image is accepted only if it has segments and each of them lies in the file and has room in
memory.  So every segment that is loaded is mapped, by its own window if by no other in front of it,
and its data are in the file.  What is left to fail are the writes, and loading ends with the first
one that does; but nothing that is checked keeps a window from the end of the address space or bounds
the zeros behind the data, and there loading crashes.
-/

set_option autoImplicit false

namespace RemoteBoot

variable {σ : Type}

namespace Image

section Fails

variable {remote : Remote σ} {image : Image}

end Fails

section Loaded

variable {remote : Remote σ} {image : Image}

end Loaded

end Image
end RemoteBoot
