import RemoteBoot.Path.Basic
import RemoteBoot.Text.Blank

/-!
# Lines of a manifest

A manifest is a text of logical lines: a carriage return in front of a line end counts for nothing,
and a backslash in front of a line end joins the next line.  `#` starts a comment.  The first word
of a line says what the line asks for, and the rest of the line is its parameter.
-/

set_option autoImplicit false

namespace RemoteBoot.Manifest

/-- Line ends of two characters become one. -/
def unifyLineEnds : Text → Text
  | '\r' :: '\n' :: rest => '\n' :: unifyLineEnds rest
  | character :: rest => character :: unifyLineEnds rest
  | [] => []

/-- A line end behind a backslash disappears with it. -/
def joinContinued : Text → Text
  | '\\' :: '\n' :: rest => joinContinued rest
  | character :: rest => character :: joinContinued rest
  | [] => []

/-- The logical lines of a text, comments and outer blanks removed. -/
def logicalLines (text : Text) : List Text :=
  (Path.splitAt '\n' (joinContinued (unifyLineEnds text))).map fun line =>
    Blank.trim (line.takeWhile fun character => character ≠ '#')

/-- What a logical line asks for. -/
inductive Line where
  | empty
  /-- A base for the relative paths below. -/
  | root (path : Path)
  /-- Push a file; the parameter is its command line. -/
  | module (file : Path) (commandLine : Text)
  /-- A module line with this word and no file. -/
  | moduleless (word : Text)
  /-- Splice in another manifest. -/
  | splice (file : Path)
  /-- Go on at the address that the text spells. -/
  | address (text : Text)
  /-- A line for other readers. -/
  | unknown (line : Text)
  deriving DecidableEq, Repr

namespace Line

def rootWord : Text := "root".toList

def moduleWords : List Text := ["exec".toList, "load".toList]

def spliceWord : Text := "conf".toList

def addressWord : Text := "addr".toList

/-- The line with a first word and a parameter. -/
def ofWord (line word parameter : Text) : Line :=
  if word = rootWord then .root ⟨parameter⟩
  else if moduleWords.contains word then
    if Blank.firstWord parameter = [] then .moduleless word
    else .module ⟨Blank.firstWord parameter⟩ parameter
  else if word = spliceWord then .splice ⟨parameter⟩
  else if word = addressWord then .address parameter
  else .unknown line

/-- What a trimmed line asks for. -/
def ofText (line : Text) : Line :=
  if line = [] then .empty
  else
    let (word, rest) := Blank.cut line
    ofWord line word (Blank.trim rest)

end Line

/-- The lines of a text in order. -/
def lines (text : Text) : List Line :=
  (logicalLines text).map Line.ofText

end RemoteBoot.Manifest
