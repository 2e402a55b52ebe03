import RemoteBoot.Path.Basic

/-!
# The normal spelling of a path

The names of a place that a path leads to are not empty, hold no separator and are not `.`, and only
the first of them can be `..`.  A place with such names is read back from its spelling, so a normal
spelling is its own normal spelling.
-/

set_option autoImplicit false

namespace RemoteBoot

namespace Path

theorem splitAt_ne_nil (separator : Char) (text : Text) : splitAt separator text ≠ [] := by
  induction text with
  | nil => simp [splitAt]
  | cons character rest ih =>
    unfold splitAt
    split
    · simp
    · split <;> simp

theorem not_mem_of_mem_splitAt {separator : Char} {text part : Text}
    (member : part ∈ splitAt separator text) : separator ∉ part := by
  induction text generalizing part with
  | nil =>
    simp only [splitAt, List.mem_singleton] at member
    simp [member]
  | cons character rest ih =>
    unfold splitAt at member
    split at member
    · rcases List.mem_cons.mp member with rfl | member
      · simp
      · exact ih member
    · next differs =>
      split at member
      · next empty => exact absurd empty (splitAt_ne_nil separator rest)
      · next first others parts =>
        rcases List.mem_cons.mp member with rfl | member
        · simp only [List.mem_cons, not_or]
          exact ⟨fun same => differs same.symm, ih (by simp [parts])⟩
        · exact ih (by simp [parts, member])

theorem splitAt_of_not_mem {separator : Char} {text : Text} (absent : separator ∉ text) :
    splitAt separator text = [text] := by
  induction text with
  | nil => rfl
  | cons character rest ih =>
    simp only [List.mem_cons, not_or] at absent
    rw [splitAt, if_neg (fun same => absent.1 same.symm), ih absent.2]

theorem splitAt_append {separator : Char} {text : Text} (suffix : Text)
    (absent : separator ∉ text) :
    splitAt separator (text ++ separator :: suffix) = text :: splitAt separator suffix := by
  induction text with
  | nil => simp [splitAt]
  | cons character rest ih =>
    simp only [List.mem_cons, not_or] at absent
    rw [List.cons_append, splitAt, if_neg (fun same => absent.1 same.symm), ih absent.2]

end Path

/-- A component that names something. -/
def IsName (name : Text) : Prop :=
  name ≠ [] ∧ name ≠ ['.'] ∧ '/' ∉ name

theorem Path.isName_of_mem_components {path : Path} {name : Text}
    (member : name ∈ path.components) : IsName name := by
  simp only [Path.components, List.mem_filter, decide_eq_true_eq] at member
  exact ⟨member.2.1, member.2.2, Path.not_mem_of_mem_splitAt member.1⟩

namespace Place

/-- Names that a spelling can hold, with `..` at most in front of all others. -/
structure Tidy (place : Place) : Prop where
  named : ∀ name ∈ place.trail, IsName name
  climbs : ∀ name ∈ place.trail.dropLast, name ≠ ['.', '.']

theorem Tidy.empty (rooted : Bool) : Tidy ⟨rooted, []⟩ :=
  ⟨by simp, by simp⟩

theorem Tidy.walk {place : Place} {name : Text} (tidy : Tidy place) (named : IsName name) :
    Tidy (place.walk name) := by
  unfold Place.walk
  split
  · split
    · next empty => exact ⟨by simpa using named, by simp⟩
    · next last trail full =>
      constructor
      · intro other member
        exact tidy.named other (by simp [full, member])
      · intro other member
        refine tidy.climbs other ?_
        rw [full]
        cases trail with
        | nil => simp at member
        | cons second others => exact List.mem_cons_of_mem last member
  · next differs =>
    constructor
    · intro other member
      rcases List.mem_cons.mp member with rfl | member
      · exact named
      · exact tidy.named other member
    · intro other member
      change other ∈ (name :: place.trail).dropLast at member
      cases full : place.trail with
      | nil => simp [full] at member
      | cons second others =>
        rw [full, List.dropLast_cons_of_ne_nil (by simp)] at member
        rcases List.mem_cons.mp member with rfl | member
        · exact differs
        · exact tidy.climbs other (by simpa [full] using member)

theorem Tidy.foldl_walk {place : Place} {names : List Text} (tidy : Tidy place)
    (named : ∀ name ∈ names, IsName name) : Tidy (names.foldl Place.walk place) := by
  induction names generalizing place with
  | nil => exact tidy
  | cons name names ih =>
    exact ih (tidy.walk (named name (by simp))) (fun other member =>
      named other (List.mem_cons_of_mem name member))

theorem splitAt_joinNames {names : List Text} (named : ∀ name ∈ names, IsName name)
    (some : names ≠ []) : Path.splitAt '/' (joinNames names) = names := by
  induction names with
  | nil => exact absurd rfl some
  | cons name names ih =>
    have absent := (named name (by simp)).2.2
    cases names with
    | nil => exact Path.splitAt_of_not_mem absent
    | cons second others =>
      rw [joinNames, Path.splitAt_append _ absent,
        ih (fun other member => named other (List.mem_cons_of_mem name member)) (by simp)]
      simp

theorem filter_names {names : List Text} (named : ∀ name ∈ names, IsName name) :
    (names.filter fun name => name ≠ [] ∧ name ≠ ['.']) = names := by
  rw [List.filter_eq_self]
  intro name member
  simpa using And.intro (named name member).1 (named name member).2.1

theorem components_path {place : Place} (tidy : Tidy place) :
    place.path.components = place.trail.reverse := by
  have named : ∀ name ∈ place.trail.reverse, IsName name := fun name member =>
    tidy.named name (List.mem_reverse.mp member)
  unfold Path.components path
  by_cases empty : place.trail.reverse = []
  · rw [empty]
    cases place.rooted <;> rfl
  · cases place.rooted with
    | true =>
      simp only [if_true, List.cons_append, List.nil_append]
      rw [Path.splitAt, if_pos rfl, splitAt_joinNames named empty, List.filter_cons]
      exact filter_names named
    | false =>
      simp only [Bool.false_eq_true, if_false, List.nil_append]
      rw [splitAt_joinNames named empty]
      exact filter_names named

theorem head_joinNames {names : List Text} (named : ∀ name ∈ names, IsName name) :
    (joinNames names).head? ≠ some '/' := by
  cases names with
  | nil => simp [joinNames]
  | cons name names =>
    have is := named name (by simp)
    cases name with
    | nil => exact absurd rfl is.1
    | cons character rest =>
      have differs : character ≠ '/' := fun same => is.2.2 (by simp [same])
      cases names <;> simpa [joinNames] using differs

theorem isAbsolute_path {place : Place} (tidy : Tidy place) :
    place.path.isAbsolute = place.rooted := by
  have named : ∀ name ∈ place.trail.reverse, IsName name := fun name member =>
    tidy.named name (List.mem_reverse.mp member)
  unfold Path.isAbsolute path
  cases place.rooted with
  | true => rfl
  | false => simpa using head_joinNames named

theorem foldl_walk_reverse {trail : List Text} (rooted : Bool)
    (climbs : ∀ name ∈ trail.dropLast, name ≠ ['.', '.']) :
    trail.reverse.foldl Place.walk ⟨rooted, []⟩ = ⟨rooted, trail⟩ := by
  induction trail with
  | nil => rfl
  | cons name trail ih =>
    rw [List.reverse_cons, List.foldl_append, ih]
    · cases trail with
      | nil =>
        by_cases climb : name = ['.', '.'] <;> simp [Place.walk, climb]
      | cons second others =>
        have differs : name ≠ ['.', '.'] := climbs name (by simp)
        simp [Place.walk, differs]
    · intro other member
      cases trail with
      | nil => simp at member
      | cons second others => exact climbs other (List.mem_cons_of_mem name member)

theorem place_path {place : Place} (tidy : Tidy place) : place.path.place = place := by
  unfold Path.place
  rw [components_path tidy, isAbsolute_path tidy, foldl_walk_reverse place.rooted tidy.climbs]

end Place

namespace Path

theorem tidy_place (path : Path) : path.place.Tidy :=
  (Place.Tidy.empty path.isAbsolute).foldl_walk fun _ member => isName_of_mem_components member

theorem normal_normal (path : Path) : path.normal.normal = path.normal := by
  unfold normal
  rw [Place.place_path path.tidy_place]

end Path
end RemoteBoot
