import RemoteBoot.Word
import RemoteBoot.Text.Numeral

/-!
# Shell scripts

The parts of the shell command language that bus programs are written in: words with their
expansions, simple commands with redirections, pipes, conditions, loops, `case`, groups and
functions.  A script is handled as bytes; each byte is the character of the same number.
-/

set_option autoImplicit false

namespace RemoteBoot.Shell

/-- Bytes as characters of the same numbers. -/
def ofBytes (bytes : Bytes) : Text :=
  bytes.map fun byte => Char.ofNat byte.toNat

/-- Characters below 256 as bytes. -/
def toBytes (text : Text) : Bytes :=
  text.map fun character => UInt8.ofNat character.toNat

inductive RedirectionKind where
  | input
  | output
  | append
  | duplicate
  deriving DecidableEq, Repr

/-- How the commands of a list depend on each other. -/
inductive Joint where
  | onSuccess
  | onFailure
  deriving DecidableEq, Repr

mutual

/-- A part of a word; quoted parts are not split and match only themselves. -/
inductive Part where
  | literal (text : Text) (quoted : Bool)
  | parameter (name : Text) (use : Use) (quoted : Bool)
  /-- The output of a command. -/
  | output (body : Command) (quoted : Bool)
  /-- The value of an arithmetic expression. -/
  | sum (body : List Part) (quoted : Bool)

/-- What is taken of a parameter. -/
inductive Use where
  | value
  | length
  /-- A word in place of a missing value; the operator is one of `-=+?`. -/
  | fallback (operator : Char) (emptyToo : Bool) (word : List Part)
  /-- The value without what a pattern matches at one end. -/
  | trim (atEnd longest : Bool) (pattern : List Part)

inductive Redirection where
  | mk (descriptor : Nat) (kind : RedirectionKind) (target : List Part)

inductive Command where
  | simple (assignments : List (Text × List Part)) (words : List (List Part))
      (redirections : List Redirection)
  | pipe (stages : List Command)
  | negate (body : Command)
  | join (first : Command) (joint : Joint) (second : Command)
  | sequence (commands : List Command)
  | choose (condition thenBody elseBody : Command)
  | loop (expected : Bool) (condition body : Command)
  | each (name : Text) (words : List (List Part)) (body : Command)
  | select (subject : List Part) (arms : List (List (List Part) × Command))
  | subshell (body : Command)
  | define (name : Text) (body : Command)
  | redirect (body : Command) (redirections : List Redirection)

end

end RemoteBoot.Shell
