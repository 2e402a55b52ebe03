import Mathlib.Logic.Relation
import RemoteBoot.Manifest.Expansion

/-!
# What the lines of a manifest contribute

With the root in effect, a line contributes nothing, one step of the boot, another manifest in its
place, or a refusal.  The contributions are read off the text of the file and the root alone; no
file that is included has a say in them.  The steps of a manifest are its contributions gathered in
order, with the steps of every included manifest in the place of its line.
-/

set_option autoImplicit false

namespace RemoteBoot.Manifest

/-- A manifest as it is asked for: a name and the root that it is read under. -/
structure Reference where
  name : Path
  root : Path

/-- The file of a manifest by the spelling that files are compared by. -/
def Reference.file (reference : Reference) : Path :=
  (reference.root.join reference.name).normal

inductive Contribution where
  | nothing
  | step (entry : Entry)
  | splice (reference : Reference)
  | refusal (fault : Fault)

/-- The root in effect behind a line. -/
def Line.rebase (root : Path) : Line → Path
  | .root path => path
  | _ => root

def Line.contribution (file root : Path) : Line → Contribution
  | .module name commandLine => .step (.load (root.join name) commandLine)
  | .splice name => .splice ⟨name, root⟩
  | .address text =>
    match Numeral.address? text with
    | some start => .step (.address start)
    | none => .refusal (.manifest file (.invalidAddress text))
  | _ => .nothing

def rootAfter (root : Path) (lines : List Line) : Path :=
  lines.foldl Line.rebase root

def contributions (file : Path) : Path → List Line → List Contribution
  | _, [] => []
  | root, line :: rest =>
    line.contribution file root :: contributions file (line.rebase root) rest

/-- The steps of one contribution, where `splice` gives those of other manifests. -/
def Contribution.steps (splice : Reference → Except Stop (List Entry)) :
    Contribution → Except Stop (List Entry)
  | .nothing => .ok []
  | .step entry => .ok [entry]
  | .splice reference => splice reference
  | .refusal fault => .error (.fault fault)

/-- The steps of contributions in order, up to the first that has none. -/
def gather (splice : Reference → Except Stop (List Entry)) :
    List Contribution → Except Stop (List Entry)
  | [] => .ok []
  | first :: rest =>
    (first.steps splice).bind fun own => (gather splice rest).map fun others => own ++ others

section Gather

variable {splice other : Reference → Except Stop (List Entry)}

theorem gather_cons_ok {first : Contribution} {rest : List Contribution} {entries : List Entry} :
    gather splice (first :: rest) = .ok entries ↔
      ∃ own others, first.steps splice = .ok own ∧ gather splice rest = .ok others ∧
        entries = own ++ others := by
  rw [gather]
  cases first.steps splice with
  | error stop => simp [Except.bind]
  | ok own =>
      cases gather splice rest with
      | error stop => simp [Except.bind, Except.map]
      | ok others => simp [Except.bind, Except.map, eq_comm]

theorem gather_append_ok {front back : List Contribution} {entries : List Entry} :
    gather splice (front ++ back) = .ok entries ↔
      ∃ first last, gather splice front = .ok first ∧ gather splice back = .ok last ∧
        entries = first ++ last := by
  induction front generalizing entries with
  | nil => simp [gather]
  | cons contribution front ih =>
      simp only [List.cons_append, gather_cons_ok, ih]
      constructor
      · rintro ⟨own, _, contributed, ⟨first, last, begun, ended, rfl⟩, rfl⟩
        exact ⟨own ++ first, last, ⟨own, first, contributed, begun, rfl⟩, ended,
          (List.append_assoc own first last).symm⟩
      · rintro ⟨_, last, ⟨own, first, contributed, begun, rfl⟩, ended, rfl⟩
        exact ⟨own, first ++ last, contributed, ⟨first, last, begun, ended, rfl⟩,
          List.append_assoc own first last⟩

theorem spliced_of_gathered {contributions : List Contribution} {entries : List Entry}
    (gathered : gather splice contributions = .ok entries) {reference : Reference}
    (member : .splice reference ∈ contributions) : ∃ spliced, splice reference = .ok spliced := by
  obtain ⟨front, back, rfl⟩ := List.append_of_mem member
  obtain ⟨_, _, _, rest, _⟩ := gather_append_ok.mp gathered
  obtain ⟨spliced, _, own, _, _⟩ := gather_cons_ok.mp rest
  exact ⟨spliced, own⟩

end Gather

theorem map_nil_append (result : Except Stop (List Entry)) :
    result.map (fun others => [] ++ others) = result := by
  cases result <;> rfl

/-- What a line gives comes in front of what the lines behind it give under their root. -/
theorem result_entries_of_cons (splice : Path → Path → Noted (List Entry)) (file root : Path)
    (line : Line) (rest : List Line) :
    (entriesOf splice file root (line :: rest)).result =
      ((line.contribution file root).steps fun reference =>
          (splice reference.name reference.root).result).bind fun own =>
        (entriesOf splice file (line.rebase root) rest).result.map fun others => own ++ others := by
  cases line with
  | address text =>
      cases spelled : Numeral.address? text with
      | none =>
          simp only [entriesOf, Line.contribution, Contribution.steps, spelled]
          rfl
      | some start =>
          simp only [entriesOf, Line.contribution, Contribution.steps, spelled,
            Noted.result_bind]
          rfl
  | module name commandLine =>
      simp only [entriesOf, Noted.result_bind]
      rfl
  | splice name =>
      simp only [entriesOf, Noted.result_bind]
      rfl
  | moduleless word =>
      simp only [entriesOf, Noted.result_bind]
      exact (map_nil_append _).symm
  | unknown text =>
      simp only [entriesOf, Noted.result_bind]
      exact (map_nil_append _).symm
  | empty => exact (map_nil_append _).symm
  | root path => exact (map_nil_append _).symm

theorem result_entries_of (splice : Path → Path → Noted (List Entry)) (file root : Path)
    (lines : List Line) :
    (entriesOf splice file root lines).result =
      gather (fun reference => (splice reference.name reference.root).result)
        (contributions file root lines) := by
  induction lines generalizing root with
  | nil => rfl
  | cons line rest ih => rw [result_entries_of_cons, contributions, gather, ih]

/-- The text of a manifest that is asked for below the files of a chain. -/
def Reference.enter (source : FileSource) (chain : List Path) (reference : Reference) :
    Except Fault Text :=
  if reference.file ∈ chain then .error (.manifest reference.file (.includeCycle reference.file))
  else
    match source.readText reference.file with
    | .error failure => .error (.manifest reference.file (.unreadable failure))
    | .ok text => .ok text

/-- The steps of a manifest that is asked for below the files of a chain. -/
def Reference.expand (source : FileSource) (chain : List Path) (reference : Reference) :
    Except Stop (List Entry) :=
  (Manifest.expand source chain reference.name reference.root).result

theorem enter_ok {source : FileSource} {chain : List Path} {reference : Reference} {text : Text} :
    reference.enter source chain = .ok text ↔
      reference.file ∉ chain ∧ source.readText reference.file = .ok text := by
  unfold Reference.enter
  split
  · simp [*]
  · next fresh =>
    split <;> simp [*]

/-- A manifest is entered, and then its contributions are gathered with its file on the chain. -/
theorem expand_eq (source : FileSource) (chain : List Path) (reference : Reference) :
    reference.expand source chain =
      match reference.enter source chain with
      | .error fault => .error (.fault fault)
      | .ok text =>
        gather (Reference.expand source (reference.file :: chain))
          (contributions reference.file reference.root (lines text)) := by
  rw [Reference.expand, Manifest.expand, Reference.enter]
  change (if onChain : reference.file ∈ chain then _ else _ : Noted (List Entry)).result = _
  by_cases onChain : reference.file ∈ chain
  · rw [dif_pos onChain, if_pos onChain]
    rfl
  · rw [dif_neg onChain, if_neg onChain]
    split
    · next failure read =>
      simp only [Reference.file, read]
      rfl
    · next text read =>
      simp only [Reference.file, read]
      rw [Noted.result_bind]
      exact result_entries_of _ _ _ _

theorem expand_ok {source : FileSource} {chain : List Path} {reference : Reference}
    {entries : List Entry} :
    reference.expand source chain = .ok entries ↔
      ∃ text, reference.enter source chain = .ok text ∧
        gather (Reference.expand source (reference.file :: chain))
          (contributions reference.file reference.root (lines text)) = .ok entries := by
  rw [expand_eq]
  cases reference.enter source chain <;> simp

/-- What holds of a chain when it holds of every longer chain that can be reached from it by
entering a manifest, holds of all chains: there are fewer files left with every step down. -/
theorem chain_induction (source : FileSource) {motive : List Path → Prop}
    (down : ∀ chain, (∀ reference text, Reference.enter source chain reference = .ok text →
      motive (reference.file :: chain)) → motive chain) (chain : List Path) : motive chain := by
  induction left : (remaining source chain).length using Nat.strongRecOn
    generalizing chain with
  | ind count ih =>
      apply down
      intro reference text entered
      obtain ⟨fresh, read⟩ := enter_ok.mp entered
      have fewer := length_remaining_lt (FileSource.listed_of_readText read) fresh
      rw [left] at fewer
      exact ih _ fewer (reference.file :: chain) rfl

end RemoteBoot.Manifest
