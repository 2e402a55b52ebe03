import RemoteBoot.Files.Source

/-!
# A tree of files

The files below a working directory, by their names from there, last name first.  Everything above
the working directory is there but has no entries that can be named.  A name can only be followed
inside a directory, and `..` leads to the directory above.
-/

set_option autoImplicit false

namespace RemoteBoot

/-- Why a host refuses to hand out a file. -/
inductive SystemError where
  | noEntry
  | notDirectory
  | isDirectory
  | notPermitted
  | nameTooLong
  | zeroInName
  deriving DecidableEq, Repr

def SystemError.message : SystemError → String
  | .noEntry => "No such file or directory (os error 2)"
  | .notDirectory => "Not a directory (os error 20)"
  | .isDirectory => "Is a directory (os error 21)"
  | .notPermitted => "Permission denied (os error 13)"
  | .nameTooLong => "File name too long (os error 36)"
  | .zeroInName => "file name contained an unexpected NUL byte"

structure FileTree where
  files : List (List Text × Bytes) := []
  directories : List (List Text) := []

namespace FileTree

inductive Entry where
  | file (contents : Bytes)
  | directory
  deriving DecidableEq, Repr

/-- A spot that a path leads to, whether or not there is anything. -/
inductive Spot where
  /-- By the names from the working directory, last name first. -/
  | inside (trail : List Text)
  /-- A directory above. -/
  | above
  | nowhere
  deriving DecidableEq, Repr

/-- One step from a spot. -/
def Spot.child (spot : Spot) (name : Text) : Spot :=
  if name = ['.'] then spot
  else
    match spot with
    | .inside [] => if name = ['.', '.'] then .above else .inside [name]
    | .inside (last :: trail) =>
      if name = ['.', '.'] then .inside trail else .inside (name :: last :: trail)
    | .above => if name = ['.', '.'] then .above else .nowhere
    | .nowhere => .nowhere

/-- What is at a spot. -/
def entryAt (tree : FileTree) : Spot → Option Entry
  | .inside [] => some .directory
  | .inside trail =>
    match tree.files.lookup trail with
    | some contents => some (.file contents)
    | none => if trail ∈ tree.directories then some .directory else none
  | .above => some .directory
  | .nowhere => none

/-- Follows a name; only a directory has entries. -/
def step (tree : FileTree) (spot : Spot) (name : Text) : Except SystemError Spot :=
  match tree.entryAt spot with
  | none => .error .noEntry
  | some (.file _) => .error .notDirectory
  | some .directory => .ok (spot.child name)

/-- Follows names one behind the other. -/
def walk (tree : FileTree) : Spot → List Text → Except SystemError Spot
  | spot, [] => .ok spot
  | spot, name :: names =>
    match tree.step spot name with
    | .ok spot => tree.walk spot names
    | .error failure => .error failure

/-- The names of a path, `.` and `..` among them. -/
def namesOf (path : Path) : List Text :=
  (Path.splitAt '/' path.spelling).filter fun name => name ≠ []

/-- Where a path starts. -/
def start (path : Path) : Spot :=
  if path.isAbsolute then .above else .inside []

/-- How many bytes a name can have. -/
def nameLimit : Nat := 255

/-- How many bytes a path can have. -/
def pathLimit : Nat := 4095

def fits (limit : Nat) (text : Text) : Bool :=
  (Utf8.encode text).length ≤ limit

/-- Why a path with a name of too many bytes leads nowhere: the names in front of it count first. -/
def failureAtName (tree : FileTree) (path : Path) : SystemError :=
  match tree.walk (start path) ((namesOf path).takeWhile (fits nameLimit)) with
  | .error failure => failure
  | .ok spot =>
    match tree.entryAt spot with
    | none => .noEntry
    | some (.file _) => .notDirectory
    | some .directory => .nameTooLong

/-- The spot that a path leads to. -/
def locate (tree : FileTree) (path : Path) : Except SystemError Spot :=
  if path.spelling = [] then .error .noEntry
  else if '\x00' ∈ path.spelling then .error .zeroInName
  else if !fits pathLimit path.spelling then .error .nameTooLong
  else if !(namesOf path).all (fits nameLimit) then .error (tree.failureAtName path)
  else
    match tree.walk (start path) (namesOf path) with
    | .error failure => .error failure
    | .ok spot =>
      if path.spelling.getLast? = some '/' then
        match tree.entryAt spot with
        | none => .error .noEntry
        | some (.file _) => .error .notDirectory
        | some .directory => .ok spot
      else .ok spot

/-- The contents of the file that a path leads to. -/
def read (tree : FileTree) (path : Path) : Except SystemError Bytes :=
  match tree.locate path with
  | .error failure => .error failure
  | .ok spot =>
    match tree.entryAt spot with
    | none => .error .noEntry
    | some (.file contents) => .ok contents
    | some .directory => .error .isDirectory

def isFile (tree : FileTree) (path : Path) : Bool :=
  (tree.read path).toOption.isSome

/-- The tree with a file stored at a trail. -/
def store (tree : FileTree) (trail : List Text) (contents : Bytes) : FileTree :=
  { tree with files := (trail, contents) :: tree.files.filter fun (other, _) => other ≠ trail }

def remove (tree : FileTree) (trail : List Text) : FileTree :=
  { tree with files := tree.files.filter fun (other, _) => other ≠ trail }

/-- The directories that lead to a trail. -/
def parents : List Text → List (List Text)
  | [] => []
  | _ :: [] => []
  | _ :: trail => trail :: parents trail

/-- The tree with a file added under a path, directories made as needed. -/
def add (tree : FileTree) (path : Path) (contents : Bytes) : FileTree :=
  let trail := path.place.trail
  let tree := { tree with directories := parents trail ++ tree.directories }
  tree.store trail contents

def ofList (files : List (Path × Bytes)) : FileTree :=
  files.foldl (fun tree (path, contents) => tree.add path contents) {}

theorem walk_nowhere {tree : FileTree} {spot : Spot} {names : List Text} {contents : Bytes}
    (gone : tree.entryAt spot = none)
    (found : (tree.walk spot names).toOption.bind tree.entryAt = some (.file contents)) :
    False := by
  cases names with
  | nil => simp [walk, gone, Except.toOption] at found
  | cons name names => simp [walk, step, gone, Except.toOption] at found

theorem walk_above {tree : FileTree} {names : List Text} {contents : Bytes}
    (plain : ∀ name ∈ names, name ≠ ['.'] ∧ name ≠ ['.', '.'])
    (found : (tree.walk .above names).toOption.bind tree.entryAt = some (.file contents)) :
    False := by
  cases names with
  | nil => simp [walk, entryAt, Except.toOption] at found
  | cons name names =>
    have is := plain name (by simp)
    have next : tree.step .above name = .ok .nowhere := by
      simp [step, entryAt, Spot.child, is.1, is.2]
    rw [walk, next] at found
    exact walk_nowhere (by rfl) found

theorem walk_inside {tree : FileTree} {trail names : List Text} {contents : Bytes}
    (plain : ∀ name ∈ names, name ≠ ['.'] ∧ name ≠ ['.', '.'])
    (found : (tree.walk (.inside trail) names).toOption.bind tree.entryAt =
      some (.file contents)) :
    tree.entryAt (.inside (names.reverse ++ trail)) = some (.file contents) := by
  induction names generalizing trail with
  | nil => simpa [walk, Except.toOption] using found
  | cons name names ih =>
    have is := plain name (by simp)
    have child : (Spot.inside trail).child name = .inside (name :: trail) := by
      cases trail <;> simp [Spot.child, is.1, is.2]
    rw [walk] at found
    cases here : tree.entryAt (.inside trail) with
    | none => simp [step, here, Except.toOption] at found
    | some entry =>
      cases entry with
      | file other => simp [step, here, Except.toOption] at found
      | directory =>
        simp only [step, here, child] at found
        have := ih (fun other member => plain other (List.mem_cons_of_mem name member)) found
        simpa using this

theorem mem_of_entry {tree : FileTree} {trail : List Text} {contents : Bytes}
    (found : tree.entryAt (.inside trail) = some (.file contents)) :
    trail ∈ tree.files.map Prod.fst := by
  cases trail with
  | nil => simp [entryAt] at found
  | cons name trail =>
    simp only [entryAt] at found
    split at found
    · next stored lookup =>
      exact mem_of_lookup lookup
    · split at found <;> simp at found

theorem namesOf_path {place : Place} (tidy : place.Tidy) :
    namesOf place.path = place.trail.reverse := by
  have named : ∀ name ∈ place.trail.reverse, IsName name := fun name member =>
    tidy.named name (List.mem_reverse.mp member)
  have kept : (place.trail.reverse.filter fun name => name ≠ []) = place.trail.reverse := by
    rw [List.filter_eq_self]
    intro name member
    simpa using (named name member).1
  unfold namesOf Place.path
  by_cases empty : place.trail.reverse = []
  · rw [empty]
    cases place.rooted <;> rfl
  · cases place.rooted with
    | true =>
      simp only [if_true, List.cons_append, List.nil_append]
      rw [Path.splitAt, if_pos rfl, Place.splitAt_joinNames named empty, List.filter_cons]
      exact kept
    | false =>
      simp only [Bool.false_eq_true, if_false, List.nil_append]
      rw [Place.splitAt_joinNames named empty]
      exact kept

/-- A file that a tidy place leads to is one of the tree, and the place is not above it. -/
theorem mem_of_walk {tree : FileTree} {place : Place} {contents : Bytes} (tidy : place.Tidy)
    (found : (tree.walk (start place.path) place.trail.reverse).toOption.bind tree.entryAt =
      some (.file contents)) :
    place.rooted = false ∧ place.trail ∈ tree.files.map Prod.fst := by
  have named : ∀ name ∈ place.trail.reverse, IsName name := fun name member =>
    tidy.named name (List.mem_reverse.mp member)
  rw [start, Place.isAbsolute_path tidy] at found
  cases reversed : place.trail.reverse with
  | nil =>
    rw [reversed] at found
    cases rooted : place.rooted <;> simp [rooted, walk, entryAt, Except.toOption] at found
  | cons first names =>
    have trail : place.trail = names.reverse ++ [first] := by
      rw [← List.reverse_reverse place.trail, reversed, List.reverse_cons]
    have plain : ∀ name ∈ names, name ≠ ['.'] ∧ name ≠ ['.', '.'] := by
      intro name member
      refine ⟨(named name (by simp [reversed, member])).2.1, tidy.climbs name ?_⟩
      rw [trail, List.dropLast_concat]
      simpa using member
    have notDot : first ≠ ['.'] := (named first (by simp [reversed])).2.1
    rw [reversed] at found
    by_cases climb : first = ['.', '.']
    · exfalso
      have next : tree.step (if place.rooted = true then .above else .inside []) first =
          .ok .above := by
        cases place.rooted <;> simp [step, entryAt, Spot.child, climb]
      rw [walk, next] at found
      exact walk_above plain found
    · cases rooted : place.rooted with
      | true =>
        exfalso
        rw [rooted, if_pos rfl] at found
        refine walk_above (fun name member => ?_) found
        rcases List.mem_cons.mp member with rfl | member
        · exact ⟨notDot, climb⟩
        · exact plain name member
      | false =>
        refine ⟨rfl, ?_⟩
        rw [rooted, if_neg Bool.false_ne_true] at found
        have inside := walk_inside (fun name member => by
          rcases List.mem_cons.mp member with rfl | member
          · exact ⟨notDot, climb⟩
          · exact plain name member) found
        rw [← reversed, List.reverse_reverse, List.append_nil] at inside
        exact mem_of_entry inside

theorem walk_of_locate {tree : FileTree} {path : Path} {spot : Spot}
    (located : tree.locate path = .ok spot) :
    tree.walk (start path) (namesOf path) = .ok spot := by
  unfold locate at located
  split at located
  · cases located
  split at located
  · cases located
  split at located
  · cases located
  split at located
  · cases located
  split at located
  · cases located
  · next reached walked =>
    rw [walked]
    split at located
    · split at located
      · cases located
      · cases located
      · exact located
    · exact located

theorem entryAt_of_read {tree : FileTree} {path : Path} {contents : Bytes}
    (found : tree.read path = .ok contents) :
    (tree.walk (start path) (namesOf path)).toOption.bind tree.entryAt =
      some (.file contents) := by
  unfold FileTree.read at found
  split at found
  · cases found
  · next spot located =>
    rw [walk_of_locate located]
    simp only [Except.toOption, Option.bind]
    split at found
    · cases found
    · next stored entry =>
      cases found
      exact entry
    · cases found

/-- The files of the tree as a source. -/
def source (tree : FileTree) : FileSource where
  read path :=
    match tree.read path with
    | .ok contents => .ok contents
    | .error failure => .error (.refused failure.message)
  names := tree.files.map fun (trail, _) => (Place.mk false trail).path
  listed := by
    intro path contents found
    have tidy := path.tidy_place
    have read : tree.read path.place.path = .ok contents := by
      change (match tree.read path.place.path with
        | .ok contents => Except.ok contents
        | .error failure => Except.error (ReadFailure.refused failure.message)) = _ at found
      split at found
      · next stored outcome => rw [outcome, Except.ok.inj found]
      · cases found
    have walked := entryAt_of_read read
    rw [namesOf_path tidy] at walked
    have member := mem_of_walk tidy walked
    obtain ⟨entry, stored, trail⟩ := List.mem_map.mp member.2
    refine List.mem_map.mpr ⟨entry, stored, ?_⟩
    change (Place.mk false entry.fst).path = path.place.path
    rw [trail, ← member.1]

end FileTree
end RemoteBoot
