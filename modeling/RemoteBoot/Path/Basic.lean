import RemoteBoot.Text.Numeral

/-!
# Paths

A path is kept as it was spelled.  It starts at the root or at the working directory and names one
component after another; repeated separators and `.` name nothing.  `normal` is the spelling that
files are compared by: a component `..` takes back the component in front of it, and stays only
where there is none.
-/

set_option autoImplicit false

namespace RemoteBoot

/-- A path by its spelling. -/
structure Path where
  spelling : Text
  deriving DecidableEq, Repr

namespace Path

def ofString (text : String) : Path := ⟨text.toList⟩

def toString (path : Path) : String := String.ofList path.spelling

def isAbsolute (path : Path) : Bool :=
  path.spelling.head? = some '/'

/-- A path read relative to a root; an absolute path replaces the root. -/
def join (root path : Path) : Path :=
  if path.isAbsolute then path
  else if root.spelling.isEmpty ∨ root.spelling.getLast? = some '/' then
    ⟨root.spelling ++ path.spelling⟩
  else ⟨root.spelling ++ '/' :: path.spelling⟩

/-- Text cut at every separator. -/
def splitAt (separator : Char) : Text → List Text
  | [] => [[]]
  | character :: rest =>
    if character = separator then [] :: splitAt separator rest
    else
      match splitAt separator rest with
      | [] => [[character]]
      | first :: others => (character :: first) :: others

/-- The components that name something, `..` among them. -/
def components (path : Path) : List Text :=
  (splitAt '/' path.spelling).filter fun name => name ≠ [] ∧ name ≠ ['.']

end Path

/-- A place in the tree of files: the root or the working directory, and the names from there, the
last one first. -/
structure Place where
  rooted : Bool
  trail : List Text
  deriving DecidableEq, Repr

namespace Place

/-- One step from a place.  `..` takes the last name back, whatever it is; with no name to take
back it becomes a name itself. -/
def walk (place : Place) (name : Text) : Place :=
  if name = ['.', '.'] then
    match place.trail with
    | [] => { place with trail := [name] }
    | _ :: trail => { place with trail := trail }
  else { place with trail := name :: place.trail }

/-- Names with a separator between each two. -/
def joinNames : List Text → Text
  | [] => []
  | [name] => name
  | name :: names => name ++ '/' :: joinNames names

/-- The one spelling of a place. -/
def path (place : Place) : Path :=
  ⟨(if place.rooted then ['/'] else []) ++ joinNames place.trail.reverse⟩

end Place

namespace Path

/-- Where a path leads. -/
def place (path : Path) : Place :=
  path.components.foldl Place.walk ⟨path.isAbsolute, []⟩

/-- The spelling that files are compared by. -/
def normal (path : Path) : Path :=
  path.place.path

end Path
end RemoteBoot
