import RemoteBoot.Shell.Format
import RemoteBoot.Shell.Utilities.Operands

/-!
# Utilities for streams

They pass text on: whole, in part, counted, changed or split over files.
-/

set_option autoImplicit false

namespace RemoteBoot.Shell.Utilities

open Effect

def cat (arguments : List Text) : Effect Nat := do
  let (text, complete) ← gather "cat" (operands arguments)
  print text
  pure (if complete then 0 else 1)

/-- The first lines of a text with their ends. -/
def takeLines : Nat → Text → Text
  | 0, _ => []
  | _ + 1, [] => []
  | count + 1, text =>
    let line := text.takeWhile fun character => character ≠ '\n'
    match text.drop line.length with
    | [] => line
    | stop :: rest => line ++ stop :: takeLines count rest

def lineCount (text : Text) : Nat :=
  text.count '\n'

/-- The last lines of a text with their ends. -/
def takeLastLines (count : Nat) (text : Text) : Text :=
  let total := lineCount text + (if text.getLast? = some '\n' ∨ text.isEmpty then 0 else 1)
  text.drop (takeLines (total - count) text).length

def head (arguments : List Text) : Effect Nat := do
  match countOption 'c' arguments with
  | some (count, [path]) =>
    if path = "/dev/zero".toList then
      print (List.replicate (natural count) '\x00')
      pure 0
    else
      let (text, complete) ← gather "head" [path]
      print (text.take (natural count))
      pure (if complete then 0 else 1)
  | some (count, paths) =>
    let (text, complete) ← gather "head" (operands paths)
    print (text.take (natural count))
    pure (if complete then 0 else 1)
  | none =>
    let (count, paths) := (countOption 'n' arguments).getD ("10".toList, arguments)
    let (text, complete) ← gather "head" (operands paths)
    print (takeLines (natural count) text)
    pure (if complete then 0 else 1)

/-- What a count of `tail` leaves: the last so many, or all from a position on. -/
def lastPart (count text : Text) : Text :=
  match count with
  | '+' :: position => text.drop (natural position - 1)
  | count => text.drop (text.length - natural count)

def tail (arguments : List Text) : Effect Nat := do
  match countOption 'c' arguments with
  | some (count, paths) =>
    let (text, complete) ← gather "tail" (operands paths)
    print (lastPart count text)
    pure (if complete then 0 else 1)
  | none =>
    let (count, paths) := (countOption 'n' arguments).getD ("10".toList, arguments)
    let (text, complete) ← gather "tail" (operands paths)
    match count with
    | '+' :: position => print (text.drop (takeLines (natural position - 1) text).length)
    | count => print (takeLastLines (natural count) text)
    pure (if complete then 0 else 1)

/-- How many runs of characters between blanks there are. -/
def wordCount (text : Text) : Nat :=
  let starts := (' ' :: text).zip text
  starts.countP fun (previous, character) =>
    previous.isWhitespace && !character.isWhitespace

/-- Counts characters, lines or words. -/
def count (arguments : List Text) : Effect Nat := do
  let (options, paths) := arguments.partition fun argument => argument.head? = some '-'
  let (text, complete) ← gather "wc" (operands paths)
  let number :=
    if options = ["-l".toList] then lineCount text
    else if options = ["-w".toList] then wordCount text
    else text.length
  let name :=
    match paths with
    | [path] => ' ' :: path
    | _ => []
  print (Numeral.render 10 number ++ name ++ ['\n'])
  pure (if complete then 0 else 1)

def tee (arguments : List Text) : Effect Nat := do
  let text ← readAll
  let (append, paths) :=
    match arguments with
    | ['-', 'a'] :: paths => (true, paths)
    | paths => (false, paths)
  for path in paths do
    match ← openOutput path append with
    | .ok channel => modify fun machine => machine.send channel text
    | .error failure => complain (fileMessage "tee" path failure)
  print text
  pure 0

/-- The members of a character set, ranges and escapes written out; the first argument bounds the
number of steps. -/
def characters : Nat → Text → Text
  | 0, _ => []
  | _ + 1, [] => []
  | fuel + 1, '\\' :: rest =>
    let (value, rest) := Format.escape rest
    value ++ characters fuel rest
  | fuel + 1, low :: '-' :: high :: rest =>
    (List.range (high.toNat + 1 - low.toNat)).map (fun offset => Char.ofNat (low.toNat + offset))
      ++ characters fuel rest
  | fuel + 1, value :: rest => value :: characters fuel rest

/-- Replaces or removes characters. -/
def replaceCharacters (arguments : List Text) : Effect Nat := do
  let text ← readAll
  match arguments with
  | [['-', 'd'], set] =>
    let set := characters (set.length + 1) set
    print (text.filter fun character => !set.contains character)
    pure 0
  | [source, target] =>
    let source := characters (source.length + 1) source
    let target := characters (target.length + 1) target
    let last := target.getLast?.getD ' '
    print (text.map fun character =>
      match source.findIdx? fun other => other = character with
      | some index => target.getD index last
      | none => character)
    pure 0
  | _ => pure 1

/-- The value of an operand `name=value`. -/
def setting? (name : String) (arguments : List Text) : Option Text :=
  arguments.findSome? fun argument =>
    if (name.toList ++ ['=']).isPrefixOf argument then some (argument.drop (name.length + 1))
    else none

/-- Copies blocks. -/
def copyBlocks (arguments : List Text) : Effect Nat := do
  let number (name : String) : Option Nat := (setting? name arguments).map natural
  let block := (number "bs").getD 512
  let wanted := (number "count").map (· * block)
  let skipped := (number "skip").getD 0 * block
  let source ←
    match setting? "if" arguments with
    | none => Except.ok <$> readAll
    | some path =>
      if path = "/dev/zero".toList then
        pure (.ok (List.replicate (skipped + wanted.getD 0) '\x00'))
      else readFile path
  match source with
  | .error failure =>
    let path := (setting? "if" arguments).getD []
    complain (fileMessage "dd" ("failed to open '".toList ++ path ++ ['\'']) failure)
    pure 1
  | .ok text =>
    let text := text.drop skipped
    let text := text.take (wanted.getD text.length)
    match setting? "of" arguments with
    | none =>
      print text
      pure 0
    | some path =>
      let place := (number "seek").getD 0 * block
      let old :=
        match ← readFile path with
        | .ok old => old
        | .error _ => []
      let front := old.take place ++ List.replicate (place - old.length) '\x00'
      let behind :=
        if (setting? "conv" arguments) = some "notrunc".toList then old.drop (place + text.length)
        else []
      match ← writeFile path (front ++ text ++ behind) with
      | .ok () => pure 0
      | .error failure =>
        complain (fileMessage "dd" path failure)
        pure 1

/-- Numbers one below the other. -/
def sequence (arguments : List Text) : Effect Nat := do
  let (first, last) :=
    match arguments with
    | [first, last] => (natural first, natural last)
    | [last] => (1, natural last)
    | _ => (1, 0)
  print ((List.range (last + 1 - first)).flatMap fun offset =>
    Numeral.render 10 (first + offset) ++ ['\n'])
  pure 0

/-- Prints arguments in a format. -/
def printFormat (arguments : List Text) : Effect Nat := do
  match arguments with
  | format :: arguments =>
    let (text, wellFormed) := Format.print format arguments
    Effect.print text
    unless wellFormed do
      complain "printf: expected numeric value\n".toList
    pure (if wellFormed then 0 else 1)
  | [] => pure 2

/-- Reads a line into variables, one word each and the rest into the last. -/
def readVariables (arguments : List Text) : Effect Nat := do
  let (line, whole) ← readLine
  let names := arguments.filter fun argument => argument.head? ≠ some '-'
  let mut rest := line.dropWhile Char.isWhitespace
  for (name, index) in names.zipIdx do
    let word :=
      if index + 1 = names.length then rest
      else rest.takeWhile fun character => !character.isWhitespace
    rest := (rest.drop word.length).dropWhile Char.isWhitespace
    modify (Machine.assign name word)
  pure (if whole then 0 else 1)

end RemoteBoot.Shell.Utilities
