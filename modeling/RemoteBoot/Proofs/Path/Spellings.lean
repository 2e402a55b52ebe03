import RemoteBoot.Path.Normal

/-!
# Paths of one normal spelling

A walk along a path climbs some directories up and then goes down through some names; a path from
the root cannot climb.  The normal spelling keeps the names, but of the climbs only whether they are
odd: a second `..` takes back the first.  So two paths share a normal spelling exactly when they
agree in kind, in names and in the parity of their climbs, and they lead to the same place from
everywhere exactly when they agree in kind, in names and, from a working directory, in their climbs.
-/

set_option autoImplicit false

namespace RemoteBoot

/-- A directory by its names from the root, the last one first. -/
abbrev Directory := List Text

/-- One step from a directory: `.` stays, and above the root there is the root. -/
def Directory.enter (directory : Directory) (name : Text) : Directory :=
  if name = [] ∨ name = ['.'] then directory
  else if name = ['.', '.'] then directory.tail
  else name :: directory

namespace Path

/-- Where a walk along the path ends.  An absolute path starts at the root. -/
def destination (path : Path) (start : Directory) : Directory :=
  (splitAt '/' path.spelling).foldl Directory.enter (if path.isAbsolute then [] else start)

/-- Both paths are absolute or both are relative, and from every directory they lead to the same
place. -/
def Equivalent (first second : Path) : Prop :=
  first.isAbsolute = second.isAbsolute ∧
    ∀ start, first.destination start = second.destination start

end Path

/-- What is left of a walk when every name that is taken back is crossed out: so many directories
up, and then down through names, the last one first. -/
structure Course where
  climbs : Nat
  names : List Text

namespace Course

def walk (course : Course) (name : Text) : Course :=
  if name = ['.', '.'] then
    match course.names with
    | [] => { course with climbs := course.climbs + 1 }
    | _ :: names => { course with names := names }
  else { course with names := name :: course.names }

def destination (course : Course) (start : Directory) : Directory :=
  course.names ++ start.drop course.climbs

/-- The place that a walk is taken for: of the climbs only an odd one is kept. -/
def place (rooted : Bool) (course : Course) : Place :=
  ⟨rooted, course.names ++ if course.climbs % 2 = 1 then [['.', '.']] else []⟩

theorem destination_walk (course : Course) (start : Directory) {name : Text}
    (named : name ≠ [] ∧ name ≠ ['.']) :
    (course.walk name).destination start = Directory.enter (course.destination start) name := by
  have stays : ¬ (name = [] ∨ name = ['.']) := not_or.mpr named
  rw [Directory.enter, if_neg stays, walk]
  by_cases climb : name = ['.', '.']
  · rw [if_pos climb, if_pos climb]
    obtain ⟨climbs, names⟩ := course
    cases names with
    | nil => simp only [destination, List.nil_append, List.tail_drop]
    | cons last names => rfl
  · rw [if_neg climb, if_neg climb]
    rfl

theorem place_walk (course : Course) (rooted : Bool) (name : Text) :
    (course.walk name).place rooted = (course.place rooted).walk name := by
  rw [Place.walk, walk]
  by_cases climb : name = ['.', '.']
  · rw [if_pos climb, if_pos climb]
    obtain ⟨climbs, names⟩ := course
    cases names with
    | nil =>
        -- The climb becomes a name, or it takes back the name that the climb before it became.
        rcases Nat.mod_two_eq_zero_or_one climbs with even | odd
        · have next : (climbs + 1) % 2 = 1 := by omega
          simp [place, even, next, climb]
        · have next : (climbs + 1) % 2 = 0 := by omega
          simp [place, odd, next]
    | cons last names => rfl
  · rw [if_neg climb, if_neg climb]
    rfl

theorem climb_not_mem_walk {course : Course} (clean : ['.', '.'] ∉ course.names) (name : Text) :
    ['.', '.'] ∉ (course.walk name).names := by
  rw [walk]
  split
  · split
    · exact clean
    · next last names full =>
      rw [full] at clean
      exact fun member => clean (List.mem_cons_of_mem last member)
  · next other =>
    simp only [List.mem_cons, not_or]
    exact ⟨fun same => other same.symm, clean⟩

theorem destination_foldl_walk (course : Course) (start : Directory) {names : List Text}
    (named : ∀ name ∈ names, name ≠ [] ∧ name ≠ ['.']) :
    (names.foldl walk course).destination start =
      names.foldl Directory.enter (course.destination start) := by
  induction names generalizing course with
  | nil => rfl
  | cons name names ih =>
      obtain ⟨first, rest⟩ := List.forall_mem_cons.mp named
      rw [List.foldl_cons, List.foldl_cons, ih _ rest, destination_walk _ _ first]

theorem place_foldl_walk (course : Course) (rooted : Bool) (names : List Text) :
    (names.foldl walk course).place rooted = names.foldl Place.walk (course.place rooted) := by
  induction names generalizing course with
  | nil => rfl
  | cons name names ih => rw [List.foldl_cons, List.foldl_cons, ih, place_walk]

theorem climb_not_mem_foldl_walk {course : Course} (clean : ['.', '.'] ∉ course.names)
    (names : List Text) : ['.', '.'] ∉ (names.foldl walk course).names := by
  induction names generalizing course with
  | nil => exact clean
  | cons name names ih => exact ih (climb_not_mem_walk clean name)

theorem foldl_walk_names (climbs : Nat) {names : List Text} (clean : ['.', '.'] ∉ names) :
    names.reverse.foldl walk ⟨climbs, []⟩ = ⟨climbs, names⟩ := by
  induction names with
  | nil => rfl
  | cons name names ih =>
      simp only [List.mem_cons, not_or] at clean
      rw [List.reverse_cons, List.foldl_append, ih clean.2]
      simp only [List.foldl_cons, List.foldl_nil, walk]
      rw [if_neg (fun same => clean.1 same.symm)]

/-- The names of a place show whether it ends in a climb, since no name of a course is one. -/
theorem place_inj {first second : Course} (clean : ['.', '.'] ∉ first.names)
    (otherClean : ['.', '.'] ∉ second.names) (rooted otherRooted : Bool) :
    first.place rooted = second.place otherRooted ↔
      rooted = otherRooted ∧ first.names = second.names ∧
        first.climbs % 2 = second.climbs % 2 := by
  have last : ∀ names : List Text, ['.', '.'] ∈ names ++ [['.', '.']] := fun names =>
    List.mem_append_right names (List.mem_singleton_self _)
  rw [place, place, Place.mk.injEq]
  apply and_congr_right
  intro _
  rcases Nat.mod_two_eq_zero_or_one first.climbs with even | odd <;>
    rcases Nat.mod_two_eq_zero_or_one second.climbs with otherEven | otherOdd
  · simp [even, otherEven]
  · simp only [even, otherOdd, if_true, Nat.zero_ne_one, if_false, List.append_nil, and_false,
      iff_false]
    intro same
    exact clean (same ▸ last second.names)
  · simp only [odd, otherEven, if_true, Nat.zero_ne_one, if_false, List.append_nil,
      Nat.one_ne_zero, and_false, iff_false]
    intro same
    exact otherClean (same ▸ last first.names)
  · simp [odd, otherOdd]

/-- From the root a course shows its names, and from a deep directory also its climbs. -/
theorem destination_inj (first second : Course) :
    (∀ start, first.destination start = second.destination start) ↔
      first.names = second.names ∧ first.climbs = second.climbs := by
  constructor
  · intro same
    have names : first.names = second.names := by
      have fromRoot := same []
      simpa [destination] using fromRoot
    refine ⟨names, ?_⟩
    have deep := same (List.replicate (first.climbs + second.climbs) ['d'])
    rw [destination, destination, names] at deep
    have lengths := congrArg List.length (List.append_cancel_left deep)
    simp only [List.length_drop, List.length_replicate] at lengths
    omega
  · rintro ⟨names, climbs⟩ start
    rw [destination, destination, names, climbs]

end Course

namespace Path

def course (path : Path) : Course :=
  path.components.foldl Course.walk ⟨0, []⟩

/-- The names that the path goes down through, the last one first. -/
def names (path : Path) : List Text :=
  path.course.names

/-- How many `..` of the path find no name to take back. -/
def climbs (path : Path) : Nat :=
  path.course.climbs

theorem climb_not_mem_names (path : Path) : ['.', '.'] ∉ path.course.names :=
  Course.climb_not_mem_foldl_walk (by simp) path.components

theorem place_eq_course (path : Path) : path.place = path.course.place path.isAbsolute := by
  rw [course, Course.place_foldl_walk]
  rfl

theorem foldl_enter_filter (parts : List Text) (directory : Directory) :
    (parts.filter fun name => name ≠ [] ∧ name ≠ ['.']).foldl Directory.enter directory =
      parts.foldl Directory.enter directory := by
  induction parts generalizing directory with
  | nil => rfl
  | cons part parts ih =>
      rw [List.filter_cons, List.foldl_cons]
      by_cases named : part ≠ [] ∧ part ≠ ['.']
      · rw [if_pos (decide_eq_true named), List.foldl_cons, ih]
      · have stays : Directory.enter directory part = directory := by
          rw [Directory.enter, if_pos]
          exact Decidable.not_not.mp (fun other => named (not_or.mp other))
        rw [if_neg (by simpa using named), ih, stays]

theorem destination_eq_course (path : Path) (start : Directory) :
    path.destination start =
      path.course.destination (if path.isAbsolute then [] else start) := by
  have named : ∀ name ∈ path.components, name ≠ [] ∧ name ≠ ['.'] := by
    intro name member
    have is := isName_of_mem_components member
    exact ⟨is.1, is.2.1⟩
  rw [course, Course.destination_foldl_walk _ _ named, components, foldl_enter_filter]
  rfl

theorem normal_eq_iff (first second : Path) :
    first.normal = second.normal ↔
      first.isAbsolute = second.isAbsolute ∧ first.names = second.names ∧
        first.climbs % 2 = second.climbs % 2 := by
  have places : first.normal = second.normal ↔ first.place = second.place := by
    constructor
    · intro same
      rw [← Place.place_path first.tidy_place, ← Place.place_path second.tidy_place]
      exact congrArg Path.place same
    · intro same
      rw [normal, normal, same]
  rw [places, place_eq_course, place_eq_course,
    Course.place_inj first.climb_not_mem_names second.climb_not_mem_names]
  rfl

theorem equivalent_iff (first second : Path) :
    first.Equivalent second ↔
      first.isAbsolute = second.isAbsolute ∧ first.names = second.names ∧
        (first.isAbsolute = true ∨ first.climbs = second.climbs) := by
  apply and_congr_right
  intro kind
  simp only [destination_eq_course, ← kind]
  cases first.isAbsolute with
  | true => simp [Course.destination, names]
  | false =>
      simp only [Bool.false_eq_true, if_false, false_or]
      exact Course.destination_inj first.course second.course

theorem climbs_normal (path : Path) : path.normal.climbs = path.climbs % 2 := by
  have clean := path.climb_not_mem_names
  rw [climbs, course, normal, Place.components_path path.tidy_place, place_eq_course, Course.place,
    List.reverse_append, List.foldl_append]
  rcases Nat.mod_two_eq_zero_or_one path.course.climbs with even | odd
  · simp only [even, climbs, Nat.zero_ne_one, if_false, List.reverse_nil, List.foldl_nil]
    rw [Course.foldl_walk_names 0 clean]
  · simp only [odd, climbs, if_true, List.reverse_singleton, List.foldl_cons, List.foldl_nil]
    have once : Course.walk ⟨0, []⟩ ['.', '.'] = ⟨1, []⟩ := rfl
    rw [once, Course.foldl_walk_names 1 clean]

theorem names_normal (path : Path) :
    path.normal.isAbsolute = path.isAbsolute ∧ path.normal.names = path.names := by
  obtain ⟨kind, names, _⟩ := (normal_eq_iff path.normal path).mp path.normal_normal
  exact ⟨kind, names⟩

/-- For two paths the normal spelling decides whether they are equivalent, unless they agree in kind
and names and differ in their climbs: relative paths by an even number, absolute ones by an odd one.
A normal spelling leads elsewhere than its path exactly if a relative path climbs twice or more. -/
theorem normal_decides_iff (first second : Path) :
    ((first.normal = second.normal ↔ first.Equivalent second) ↔
      (first.isAbsolute = second.isAbsolute → first.names = second.names →
        (first.climbs % 2 = second.climbs % 2 ↔
          first.isAbsolute = true ∨ first.climbs = second.climbs))) ∧
      (first.normal.Equivalent first ↔ first.isAbsolute = true ∨ first.climbs ≤ 1) := by
  constructor
  · rw [normal_eq_iff, equivalent_iff, and_congr_right_iff]
    apply imp_congr_right
    intro kind
    exact and_congr_right_iff
  · obtain ⟨kind, names⟩ := first.names_normal
    have once : first.climbs % 2 = first.climbs ↔ first.climbs ≤ 1 := by omega
    rw [equivalent_iff, climbs_normal, kind, once]
    simp only [names, true_and]

/-- The second climb takes back the first, so a file two directories up is taken for one that is
here; and a climb from the root gives the root's own files a second spelling. -/
theorem climbs_confuse_spellings :
    ¬ (∀ first second : Path, first.normal = second.normal ↔ first.Equivalent second) ∧
      ¬ (∀ path : Path, path.normal.Equivalent path) ∧
      (ofString "../../a.conf").normal = ofString "a.conf" ∧
      (ofString "/../a.conf").Equivalent (ofString "/a.conf") ∧
      (ofString "/../a.conf").normal ≠ (ofString "/a.conf").normal := by
  have taken : (ofString "../../a.conf").normal = ofString "a.conf" := by decide +kernel
  have own : (ofString "a.conf").normal = ofString "a.conf" := by decide +kernel
  have apart : ¬ (ofString "a.conf").Equivalent (ofString "../../a.conf") := by
    rw [equivalent_iff]
    decide +kernel
  refine ⟨?_, ?_, taken, ?_, by decide +kernel⟩
  · intro decided
    exact apart ((decided _ _).mp (own.trans taken.symm))
  · intro kept
    have leads := kept (ofString "../../a.conf")
    rw [taken] at leads
    exact apart leads
  · rw [equivalent_iff]
    decide +kernel

end Path
end RemoteBoot
