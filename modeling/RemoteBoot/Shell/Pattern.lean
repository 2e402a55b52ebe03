import RemoteBoot.Text.Numeral

/-!
# Shell patterns

`*` matches any text, `?` any character and `[...]` one of a set, unless they are quoted.
-/

set_option autoImplicit false

namespace RemoteBoot.Shell

/-- A character of a pattern; quoted ones match only themselves. -/
structure PatternCharacter where
  value : Char
  quoted : Bool
  deriving DecidableEq, Repr

abbrev Pattern := List PatternCharacter

namespace Pattern

/-- The members of a set and the pattern behind it. -/
def set? : Bool → Pattern → Option (List (Char × Char) × Pattern)
  | _, [] => none
  | first, head :: rest =>
    if head.value = ']' ∧ !head.quoted ∧ !first then some ([], rest)
    else
      match rest with
      | dash :: last :: others =>
        if dash.value = '-' ∧ !dash.quoted ∧ (last.value ≠ ']' ∨ last.quoted) then do
          let (ranges, rest) ← set? false others
          some ((head.value, last.value) :: ranges, rest)
        else do
          let (ranges, rest) ← set? false (dash :: last :: others)
          some ((head.value, head.value) :: ranges, rest)
      | rest => do
        let (ranges, rest) ← set? false rest
        some ((head.value, head.value) :: ranges, rest)

/-- Whether a pattern matches all of a text; the first argument bounds the number of steps. -/
def matchesWithin : Nat → Pattern → Text → Bool
  | 0, _, _ => false
  | _ + 1, [], text => text.isEmpty
  | fuel + 1, head :: rest, text =>
    if head.quoted then
      match text with
      | character :: text => head.value == character && matchesWithin fuel rest text
      | [] => false
    else
      match head.value, text with
      | '*', [] => matchesWithin fuel rest []
      | '*', character :: others =>
        matchesWithin fuel rest (character :: others) || matchesWithin fuel (head :: rest) others
      | '?', _ :: text => matchesWithin fuel rest text
      | '[', character :: text =>
        let (negated, members) :=
          match rest with
          | mark :: others =>
            if (mark.value = '!' ∨ mark.value = '^') ∧ !mark.quoted then (true, others)
            else (false, rest)
          | [] => (false, [])
        match set? true members with
        | some (ranges, behind) =>
          (ranges.any fun (low, high) => low ≤ character && character ≤ high) != negated
            && matchesWithin fuel behind text
        | none => character == '[' && matchesWithin fuel rest text
      | value, character :: text => value == character && matchesWithin fuel rest text
      | _, [] => false

def isMatch (pattern : Pattern) (text : Text) : Bool :=
  matchesWithin (pattern.length + text.length + 1) pattern text

/-- Drops what a pattern matches at the head of a text, as little or as much as possible. -/
def dropHead (longest : Bool) (pattern : Pattern) (text : Text) : Text :=
  let lengths := List.range (text.length + 1)
  let tried := if longest then lengths.reverse else lengths
  match tried.find? fun length => isMatch pattern (text.take length) with
  | some length => text.drop length
  | none => text

/-- Drops what a pattern matches at the end of a text, as little or as much as possible. -/
def dropTail (longest : Bool) (pattern : Pattern) (text : Text) : Text :=
  let lengths := List.range (text.length + 1)
  let tried := if longest then lengths else lengths.reverse
  match tried.find? fun length => isMatch pattern (text.drop length) with
  | some length => text.take length
  | none => text

end Pattern
end RemoteBoot.Shell
