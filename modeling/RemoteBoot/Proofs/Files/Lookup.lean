import Mathlib.Data.List.Induction
import RemoteBoot.Proofs.Manifest.Contributions
import RemoteBoot.Proofs.Path.Spellings

/-!
# Files found by any of their spellings

Of the files that were inserted under paths of one normal spelling the last one is found, under
every path that has this normal spelling.  Since a normal spelling is its own, a path may be made
normal any number of times before the files are asked; only a failure shows it, for it names the
path that was asked for.  So an expansion that asks for each manifest by the path as it is spelled
ends, note for note, as the one that asks for normal spellings.
-/

set_option autoImplicit false

namespace RemoteBoot

/-- Between the separators of a place's spelling there are its names, or nothing: in front of the
root, and where the place has no names. -/
theorem Place.eq_nil_or_mem_of_mem_splitAt {place : Place} (tidy : place.Tidy) {part : Text}
    (member : part ∈ Path.splitAt '/' place.path.spelling) :
    part = [] ∨ part ∈ place.trail := by
  have named : ∀ name ∈ place.trail.reverse, IsName name := fun name member =>
    tidy.named name (List.mem_reverse.mp member)
  have joined : ∀ part ∈ Path.splitAt '/' (joinNames place.trail.reverse),
      part = [] ∨ part ∈ place.trail := by
    intro part member
    by_cases empty : place.trail.reverse = []
    · rw [empty] at member
      exact Or.inl (List.mem_singleton.mp member)
    · rw [splitAt_joinNames named empty] at member
      exact Or.inr (List.mem_reverse.mp member)
  unfold path at member
  cases rooted : place.rooted with
  | true =>
      simp only [rooted, if_true, List.cons_append, List.nil_append] at member
      rw [Path.splitAt, if_pos rfl] at member
      rcases List.mem_cons.mp member with front | behind
      · exact Or.inl front
      · exact joined part behind
  | false =>
      simp only [rooted, Bool.false_eq_true, if_false, List.nil_append] at member
      exact joined part member

theorem Path.dot_not_mem_splitAt_normal (path : Path) :
    ['.'] ∉ splitAt '/' path.normal.spelling := by
  intro member
  rcases Place.eq_nil_or_mem_of_mem_splitAt path.tidy_place member with empty | listed
  · cases empty
  · exact (path.tidy_place.named _ listed).2.1 rfl

/-- The failure as it is told of another path: a missing file is named as it was asked for. -/
def ReadFailure.about (path : Path) : ReadFailure → ReadFailure
  | .missing _ => .missing path
  | failure => failure

namespace MemoryFiles

/-- Of the insertions under a normal spelling, what the last one gave. -/
def lastGiven (insertions : List (Path × Bytes)) (spelling : Path) : Option Bytes :=
  (insertions.filter fun insertion => insertion.1.normal = spelling).getLast?.map Prod.snd

theorem lastGiven_append_singleton (insertions : List (Path × Bytes)) (path : Path)
    (contents : Bytes) (spelling : Path) :
    lastGiven (insertions ++ [(path, contents)]) spelling =
      if path.normal = spelling then some contents else lastGiven insertions spelling := by
  rw [lastGiven, List.filter_append]
  by_cases same : path.normal = spelling
  · simp [same]
  · simp [same, lastGiven]

theorem find?_insert (files : MemoryFiles) (path : Path) (contents : Bytes) (asked : Path) :
    (files.insert path contents).find? asked =
      if path.normal = asked.normal then some contents else files.find? asked := by
  rw [find?, insert, List.lookup_cons]
  by_cases same : path.normal = asked.normal
  · simp [same]
  · rw [if_neg same, beq_eq_false_iff_ne.mpr (Ne.symm same)]
    rfl

theorem find?_ofList (insertions : List (Path × Bytes)) (asked : Path) :
    (ofList insertions).find? asked = lastGiven insertions asked.normal := by
  induction insertions using List.reverseRecOn with
  | nil => rfl
  | append_singleton insertions last ih =>
      obtain ⟨path, contents⟩ := last
      have inserted : ofList (insertions ++ [(path, contents)]) =
          (ofList insertions).insert path contents := by
        rw [ofList, List.foldl_append]
        rfl
      rw [inserted, find?_insert, ih, lastGiven_append_singleton]

theorem read_ofList (insertions : List (Path × Bytes)) (asked : Path) :
    (ofList insertions).read asked =
      (lastGiven insertions asked.normal).elim (.error (.missing asked)) .ok := by
  rw [read, find?_ofList]
  cases lastGiven insertions asked.normal <;> rfl

theorem readText_normal (files : MemoryFiles) (path : Path) :
    files.source.readText path.normal =
      (files.source.readText path).mapError (ReadFailure.about path.normal) := by
  simp only [FileSource.readText, source, read, find?_normal]
  cases files.find? path with
  | none => rfl
  | some contents =>
      simp only
      cases Utf8.decode contents <;> rfl

theorem readText_normal_of_ok {files : MemoryFiles} {path : Path} {text : Text}
    (found : files.source.readText path = .ok text) :
    files.source.readText path.normal = .ok text := by
  rw [readText_normal, found]
  rfl

end MemoryFiles

namespace Manifest

/-- Expansion that asks for each manifest by the path that its line spells.  Chains, notes and
faults hold normal spellings as before. -/
def expandAsSpelled (files : MemoryFiles) (chain : List Path) (name root : Path) :
    Noted (List Entry) :=
  let file := (root.join name).normal
  if onChain : file ∈ chain then Noted.fail (.manifest file (.includeCycle file))
  else
    match read : files.source.readText (root.join name) with
    | .error failure => Noted.fail (.manifest file (.unreadable (failure.about file)))
    | .ok text => do
      Noted.note .debug .manifest ("reading manifest " ++ file.toString)
      have found := MemoryFiles.readText_normal_of_ok read
      have := length_remaining_lt (FileSource.listed_of_readText found) onChain
      entriesOf (expandAsSpelled files (file :: chain)) file root (lines text)
termination_by (remaining files.source chain).length

theorem expandAsSpelled_eq_expand (files : MemoryFiles) (chain : List Path) (name root : Path) :
    expandAsSpelled files chain name root = expand files.source chain name root := by
  induction chain using chain_induction files.source generalizing name root with
  | down chain ih =>
      rw [expandAsSpelled, expand]
      by_cases onChain : (root.join name).normal ∈ chain
      · simp only [dif_pos onChain]
      · simp only [dif_neg onChain]
        -- The answer for the spelled path decides the one for its normal spelling.
        split
        · next failure asSpelled =>
          have told := files.readText_normal (root.join name)
          rw [asSpelled] at told
          split
          · next other read =>
            cases told.symm.trans read
            rfl
          · next text read => cases told.symm.trans read
        · next text asSpelled =>
          have told := MemoryFiles.readText_normal_of_ok asSpelled
          split
          · next failure read => cases told.symm.trans read
          · next other read =>
            cases told.symm.trans read
            have entered : (⟨name, root⟩ : Reference).enter files.source chain = .ok text :=
              enter_ok.mpr ⟨onChain, told⟩
            have below : expandAsSpelled files ((root.join name).normal :: chain) =
                expand files.source ((root.join name).normal :: chain) := by
              funext inner current
              exact ih ⟨name, root⟩ text entered inner current
            rw [below]

end Manifest

namespace MemoryFiles

/-- One pass makes a path normal: it leaves no component `.`, and the kind of the path and its names
stay.  After any insertions a path and its normal spelling find the same: what the last insertion
under that normal spelling gave, or that no file is there, which each failure says of the path that
was asked for.  So manifests are expanded alike whether their paths are made normal before the files
are asked or not. -/
theorem spellings_find_one_file :
    (∀ path : Path, path.normal.normal = path.normal ∧
        ['.'] ∉ Path.splitAt '/' path.normal.spelling ∧
        path.normal.isAbsolute = path.isAbsolute ∧ path.normal.names = path.names) ∧
      ∀ insertions : List (Path × Bytes),
        let files := ofList insertions
        (∀ asked : Path,
          let given := lastGiven insertions asked.normal
          files.read asked = given.elim (.error (.missing asked)) .ok ∧
            files.read asked.normal = given.elim (.error (.missing asked.normal)) .ok) ∧
        ∀ name root,
          Manifest.parse files.source name root = Manifest.expandAsSpelled files [] name root := by
  refine ⟨?_, ?_⟩
  · intro path
    exact ⟨path.normal_normal, path.dot_not_mem_splitAt_normal, path.names_normal⟩
  intro insertions files
  refine ⟨fun asked => ⟨read_ofList insertions asked, ?_⟩, fun name root => ?_⟩
  · have again := read_ofList insertions asked.normal
    rw [Path.normal_normal] at again
    exact again
  · exact (Manifest.expandAsSpelled_eq_expand files [] name root).symm

/-- A normal spelling that climbs, stored and found by spellings that climb elsewhere on the way. -/
example : (ofList [(.ofString "../a", [1]), (.ofString "./../b/../a", [2]),
    (.ofString "a", [3])]).read (.ofString "x/../..//a") = .ok [2] := rfl

end MemoryFiles
end RemoteBoot
