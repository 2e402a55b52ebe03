import RemoteBoot.Files.Source
import RemoteBoot.Journal
import RemoteBoot.Manifest.Line
import RemoteBoot.Text.Quoted

/-!
# Manifests with their includes

Expanding a manifest gives the steps of a boot in order, those of included manifests in the place of
the line that includes them.  A root set inside a file is forgotten at its end.  Files under
expansion form a chain; a file that is on the chain already closes a cycle.  The files that can
still be opened become fewer with every step down, so expansion ends.
-/

set_option autoImplicit false

namespace RemoteBoot.Manifest

/-- One step of a boot. -/
inductive Entry where
  | load (file : Path) (commandLine : Text)
  | address (address : Nat)
  deriving DecidableEq, Repr

/-- The steps that lines ask for under a root; `splice` expands another manifest. -/
def entriesOf (splice : Path → Path → Noted (List Entry)) (file : Path) :
    Path → List Line → Noted (List Entry)
  | _, [] => pure []
  | root, line :: rest =>
    match line with
    | .empty => entriesOf splice file root rest
    | .root path => entriesOf splice file path rest
    | .module name commandLine => do
      let others ← entriesOf splice file root rest
      pure (.load (root.join name) commandLine :: others)
    | .moduleless word => do
      Noted.note .warn .manifest (file.toString ++ ": `" ++ String.ofList word
        ++ "` without a file")
      entriesOf splice file root rest
    | .splice name => do
      let spliced ← splice name root
      let others ← entriesOf splice file root rest
      pure (spliced ++ others)
    | .address text =>
      match Numeral.address? text with
      | some address => do
        let others ← entriesOf splice file root rest
        pure (.address address :: others)
      | none => Noted.fail (.manifest file (.invalidAddress text))
    | .unknown line => do
      Noted.note .warn .manifest ("ignored line: " ++ Quoted.quote line)
      entriesOf splice file root rest

/-- The files of a source that are not under expansion. -/
def remaining (source : FileSource) (chain : List Path) : List Path :=
  source.names.filter fun name => name ∉ chain

theorem length_remaining_lt {source : FileSource} {chain : List Path} {file : Path}
    (listed : file ∈ source.names) (fresh : file ∉ chain) :
    (remaining source (file :: chain)).length < (remaining source chain).length := by
  have split : remaining source (file :: chain) =
      (remaining source chain).filter fun name => name ≠ file := by
    rw [remaining, remaining, List.filter_filter]
    congr 1
    funext name
    simp
  have member : file ∈ remaining source chain := by
    simp [remaining, listed, fresh]
  rw [split]
  exact List.length_filter_lt_length_iff_exists.mpr ⟨file, member, by simp⟩

/-- Expands the manifest `name`, read relative to a root, below the files of a chain. -/
def expand (source : FileSource) (chain : List Path) (name root : Path) : Noted (List Entry) :=
  let file := (root.join name).normal
  if onChain : file ∈ chain then Noted.fail (.manifest file (.includeCycle file))
  else
    match read : source.readText file with
    | .error failure => Noted.fail (.manifest file (.unreadable failure))
    | .ok text => do
      Noted.note .debug .manifest ("reading manifest " ++ file.toString)
      have := length_remaining_lt (FileSource.listed_of_readText read) onChain
      entriesOf (expand source (file :: chain)) file root (lines text)
termination_by (remaining source chain).length

/-- The steps of a boot. -/
def parse (source : FileSource) (name root : Path) : Noted (List Entry) :=
  expand source [] name root

end RemoteBoot.Manifest
