import RemoteBoot.Json.Value

/-!
# Reading JSON

The grammar of JSON without any limit of depth.  Each reader takes what it reads off the head of the
text and leaves the rest.  A value is recognised by its first character, and a text is one value
with blanks around it.
-/

set_option autoImplicit false

namespace RemoteBoot.Json

/-- The four blanks of JSON. -/
def isBlank (character : Char) : Bool :=
  character == ' ' || character == '\t' || character == '\n' || character == '\r'

def skip (text : Text) : Text :=
  text.dropWhile isBlank

/-- A part of a string: a character, or a UTF-16 unit by its number. -/
inductive Piece where
  | character (value : Char)
  | unit (code : Nat)
  deriving DecidableEq, Repr

/-- What a backslash makes of a character. -/
def unescape? : Char → Option Char
  | '"' => some '"'
  | '\\' => some '\\'
  | '/' => some '/'
  | 'b' => some '\x08'
  | 'f' => some '\x0c'
  | 'n' => some '\n'
  | 'r' => some '\r'
  | 't' => some '\t'
  | _ => none

/-- The parts of a string up to its closing quote. -/
def pieces? : Text → Option (List Piece × Text)
  | '"' :: rest => some ([], rest)
  | '\\' :: 'u' :: a :: b :: c :: d :: rest => do
    let code ← Numeral.ofDigits? 16 [a, b, c, d]
    let (pieces, rest) ← pieces? rest
    some (.unit code :: pieces, rest)
  | '\\' :: escaped :: rest => do
    let value ← unescape? escaped
    let (pieces, rest) ← pieces? rest
    some (.character value :: pieces, rest)
  | value :: rest =>
    if value.toNat < 0x20 ∨ value = '\\' then none
    else do
      let (pieces, rest) ← pieces? rest
      some (.character value :: pieces, rest)
  | [] => none

def isHigh (code : Nat) : Bool := 0xd800 ≤ code && code < 0xdc00

def isLow (code : Nat) : Bool := 0xdc00 ≤ code && code < 0xe000

/-- The character of a surrogate pair. -/
def pairValue (high low : Nat) : Char :=
  Char.ofNat (0x10000 + (high - 0xd800) * 0x400 + (low - 0xdc00))

/-- The text of some parts; there is none if a surrogate is alone. -/
def textOf? : List Piece → Option Text
  | [] => some []
  | .character value :: pieces => (textOf? pieces).map (value :: ·)
  | .unit code :: pieces =>
    if isHigh code then
      match pieces with
      | .unit low :: others =>
        if isLow low then (textOf? others).map (pairValue code low :: ·) else none
      | _ => none
    else if isLow code then none
    else (textOf? pieces).map (Char.ofNat code :: ·)

def isDigit (character : Char) : Bool :=
  48 ≤ character.toNat && character.toNat ≤ 57

/-- One or more digits. -/
def digits? (text : Text) : Option (Text × Text) :=
  match text.takeWhile isDigit with
  | [] => none
  | digits => some (digits, text.dropWhile isDigit)

/-- The digits of a whole number: no zero stands in front of another digit. -/
def whole? (text : Text) : Option (Text × Text) := do
  let (digits, rest) ← digits? text
  if digits.head? = some '0' ∧ digits ≠ ['0'] then none else some (digits, rest)

/-- An optional fraction; the answer says whether there is one. -/
def fraction? : Text → Option (Bool × Text)
  | '.' :: rest => (digits? rest).map fun (_, rest) => (true, rest)
  | rest => some (false, rest)

/-- An optional exponent; the answer says whether there is one. -/
def exponent? : Text → Option (Bool × Text)
  | mark :: rest =>
    if mark = 'e' ∨ mark = 'E' then
      let unsigned :=
        match rest with
        | '+' :: rest => rest
        | '-' :: rest => rest
        | rest => rest
      (digits? unsigned).map fun (_, rest) => (true, rest)
    else some (false, mark :: rest)
  | [] => some (false, [])

def number? (text : Text) : Option (Json × Text) := do
  let (negative, unsigned) :=
    match text with
    | '-' :: rest => (true, rest)
    | text => (false, text)
  let (digits, rest) ← whole? unsigned
  let (fractional, rest) ← fraction? rest
  let (scaled, rest) ← exponent? rest
  let value := if negative || fractional || scaled then none else Numeral.ofDigits? 10 digits
  some (.number value, rest)

def string? (text : Text) : Option (Option Text × Text) := do
  let (pieces, rest) ← pieces? text
  some (textOf? pieces, rest)

mutual

/-- A value; the first argument bounds the depth of the recursion. -/
def value? : Nat → Text → Option (Json × Text)
  | 0, _ => none
  | fuel + 1, text =>
    match text with
    | 'n' :: 'u' :: 'l' :: 'l' :: rest => some (.null, rest)
    | 't' :: 'r' :: 'u' :: 'e' :: rest => some (.bool true, rest)
    | 'f' :: 'a' :: 'l' :: 's' :: 'e' :: rest => some (.bool false, rest)
    | '"' :: rest => (string? rest).map fun (text, rest) => (.string text, rest)
    | '[' :: rest =>
      match skip rest with
      | ']' :: rest => some (.array [], rest)
      | rest => (items? fuel rest).map fun (items, rest) => (.array items, rest)
    | '\x7b' :: rest =>
      match skip rest with
      | '\x7d' :: rest => some (.object [], rest)
      | rest => (members? fuel rest).map fun (members, rest) => (.object members, rest)
    | text => number? text

/-- One or more values up to the end of an array. -/
def items? : Nat → Text → Option (List Json × Text)
  | 0, _ => none
  | fuel + 1, text => do
    let (item, rest) ← value? fuel text
    match skip rest with
    | ']' :: rest => some ([item], rest)
    | ',' :: rest => do
      let (items, rest) ← items? fuel (skip rest)
      some (item :: items, rest)
    | _ => none

/-- One or more members up to the end of an object. -/
def members? : Nat → Text → Option (List (Option Text × Json) × Text)
  | 0, _ => none
  | fuel + 1, text =>
    match text with
    | '"' :: rest => do
      let (name, rest) ← string? rest
      match skip rest with
      | ':' :: rest => do
        let (value, rest) ← value? fuel (skip rest)
        match skip rest with
        | '\x7d' :: rest => some ([(name, value)], rest)
        | ',' :: rest => do
          let (members, rest) ← members? fuel (skip rest)
          some ((name, value) :: members, rest)
        | _ => none
      | _ => none
    | _ => none

end

/-- The value that a text spells. -/
def ofText? (text : Text) : Option Json :=
  match value? (2 * text.length + 2) (skip text) with
  | some (value, rest) => if skip rest = [] then some value else none
  | none => none

end RemoteBoot.Json
