import RemoteBoot.Shell.Pattern

/-!
# Fields of a word

An expanded word is a list of pieces.  Text that came out of an unquoted expansion is split at
blanks, so one word becomes any number of fields.
-/

set_option autoImplicit false

namespace RemoteBoot.Shell

inductive Piece where
  /-- Quoted text makes a field even if it is empty; text of an expansion is split. -/
  | text (characters : Text) (quoted splits : Bool)
  /-- The end of one argument and the start of the next. -/
  | gap
  deriving DecidableEq, Repr

namespace Piece

/-- The result of an expansion. -/
def expanded (quoted : Bool) (characters : Text) : Piece :=
  .text characters quoted !quoted

/-- The piece as one that is split unless it is quoted. -/
def splitting : Piece → Piece
  | .text characters quoted _ => .text characters quoted !quoted
  | .gap => .gap

/-- Pieces as one text. -/
def join (pieces : List Piece) : Text :=
  pieces.flatMap fun piece =>
    match piece with
    | .text characters _ _ => characters
    | .gap => [' ']

/-- Pieces as a pattern. -/
def pattern (pieces : List Piece) : Pattern :=
  pieces.flatMap fun piece =>
    match piece with
    | .text characters quoted _ => characters.map fun character => ⟨character, quoted⟩
    | .gap => [⟨' ', true⟩]

def separates (character : Char) : Bool :=
  character == ' ' || character == '\t' || character == '\n'

/-- The fields behind one that may have been started. -/
def fieldsFrom : Option Text → List Piece → List Text
  | started, [] => started.toList
  | started, .gap :: pieces => started.toList ++ fieldsFrom none pieces
  | started, .text characters quoted false :: pieces =>
    if characters.isEmpty && !quoted then fieldsFrom started pieces
    else fieldsFrom (some (started.getD [] ++ characters)) pieces
  | started, .text characters _ true :: pieces =>
    let (finished, started) := split started characters
    finished ++ fieldsFrom started pieces
where
  /-- The finished fields and the started one behind split text. -/
  split : Option Text → Text → List Text × Option Text
    | started, [] => ([], started)
    | started, character :: rest =>
      if separates character then
        let (finished, last) := split none rest
        (started.toList ++ finished, last)
      else split (some (started.getD [] ++ [character])) rest

def fields (pieces : List Piece) : List Text :=
  fieldsFrom none pieces

end Piece
end RemoteBoot.Shell
