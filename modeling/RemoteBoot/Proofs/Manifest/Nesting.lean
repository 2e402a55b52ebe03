import Mathlib.Data.List.Chain
import RemoteBoot.Proofs.Manifest.Contributions

/-!
# Manifests inside one another

One manifest includes another if a line of its text asks for it.  Where a manifest expands without
a fault, no file comes twice in a chain of manifests of which each includes the next, and the steps
depend on the files of such chains alone: they are the same below a shorter chain of open files, and
with other files where no chain leads.
-/

set_option autoImplicit false

namespace RemoteBoot.Manifest

/-- The text of one manifest asks for another, whether or not an expansion gets there. -/
def Includes (source : FileSource) (outer inner : Reference) : Prop :=
  ∃ text, source.readText outer.file = .ok text ∧
    .splice inner ∈ contributions outer.file outer.root (lines text)

/-- Manifests of which each includes the next. -/
def Nested (source : FileSource) : List Reference → Prop :=
  List.IsChain (Includes source)

section Expanded

variable {source : FileSource}

theorem expanded_of_included {chain : List Path} {outer inner : Reference} {entries : List Entry}
    (expanded : outer.expand source chain = .ok entries) (included : Includes source outer inner) :
    ∃ others, inner.expand source (outer.file :: chain) = .ok others := by
  obtain ⟨text, entered, gathered⟩ := expand_ok.mp expanded
  obtain ⟨_, read⟩ := enter_ok.mp entered
  obtain ⟨same, readAgain, member⟩ := included
  rw [read] at readAgain
  cases readAgain
  exact spliced_of_gathered gathered member

theorem fresh_of_expanded {chain : List Path} {reference : Reference} {entries : List Entry}
    (expanded : reference.expand source chain = .ok entries) : reference.file ∉ chain := by
  obtain ⟨text, entered, _⟩ := expand_ok.mp expanded
  exact (enter_ok.mp entered).1

/-- The files of nested manifests differ from one another and from those on the chain. -/
theorem nodup_of_nested {chain : List Path} {first : Reference} {rest : List Reference}
    {entries : List Entry} (expanded : first.expand source chain = .ok entries)
    (nested : Nested source (first :: rest)) :
    ((first :: rest).map Reference.file).Nodup ∧
      ∀ reference ∈ first :: rest, reference.file ∉ chain := by
  induction rest generalizing chain first entries with
  | nil => simpa using fresh_of_expanded expanded
  | cons second rest ih =>
      obtain ⟨included, nested⟩ := List.isChain_cons_cons.mp nested
      obtain ⟨others, expandedInside⟩ := expanded_of_included expanded included
      obtain ⟨distinct, apart⟩ := ih expandedInside nested
      constructor
      · rw [List.map_cons, List.nodup_cons]
        refine ⟨?_, distinct⟩
        intro repeated
        obtain ⟨reference, member, same⟩ := List.mem_map.mp repeated
        exact apart reference member (same ▸ List.mem_cons_self)
      · intro reference member
        rcases List.mem_cons.mp member with rfl | member
        · exact fresh_of_expanded expanded
        · intro onChain
          exact apart reference member (List.mem_cons_of_mem _ onChain)

end Expanded
end RemoteBoot.Manifest
