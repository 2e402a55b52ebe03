import RemoteBoot.Text.Numeral

/-!
# Arithmetic of the shell

Expressions over whole numbers with the operators of shells, written in decimal, octal or
hexadecimal.  A name stands for the number in the variable of that name.
-/

set_option autoImplicit false

namespace RemoteBoot.Shell.Arithmetic

def truth (value : Bool) : Int := if value then 1 else 0

/-- The value of a bit operation on the 64-bit forms of two numbers. -/
def bitwise (operation : UInt64 → UInt64 → UInt64) (left right : Int) : Int :=
  (operation left.toInt64.toUInt64 right.toInt64.toUInt64).toInt64.toInt

/-- A binary operator: how it is written, how tightly it binds, and its value. -/
structure Operator where
  spelling : Text
  strength : Nat
  value? : Int → Int → Option Int

/-- Longer spellings stand in front of their beginnings. -/
def operators : List Operator := [
  ⟨"||".toList, 1, fun a b => some (truth (a ≠ 0 || b ≠ 0))⟩,
  ⟨"&&".toList, 2, fun a b => some (truth (a ≠ 0 && b ≠ 0))⟩,
  ⟨"==".toList, 6, fun a b => some (truth (a == b))⟩,
  ⟨"!=".toList, 6, fun a b => some (truth (a != b))⟩,
  ⟨"<<".toList, 8, fun a b => some (a * (1 <<< b.toNat : Nat))⟩,
  ⟨">>".toList, 8, fun a b => some (a / (1 <<< b.toNat : Nat))⟩,
  ⟨"<=".toList, 7, fun a b => some (truth (a ≤ b))⟩,
  ⟨">=".toList, 7, fun a b => some (truth (a ≥ b))⟩,
  ⟨"|".toList, 3, fun a b => some (bitwise (· ||| ·) a b)⟩,
  ⟨"^".toList, 4, fun a b => some (bitwise (· ^^^ ·) a b)⟩,
  ⟨"&".toList, 5, fun a b => some (bitwise (· &&& ·) a b)⟩,
  ⟨"<".toList, 7, fun a b => some (truth (a < b))⟩,
  ⟨">".toList, 7, fun a b => some (truth (a > b))⟩,
  ⟨"+".toList, 9, fun a b => some (a + b)⟩,
  ⟨"-".toList, 9, fun a b => some (a - b)⟩,
  ⟨"*".toList, 10, fun a b => some (a * b)⟩,
  ⟨"/".toList, 10, fun a b => if b = 0 then none else some (a.tdiv b)⟩,
  ⟨"%".toList, 10, fun a b => if b = 0 then none else some (a.tmod b)⟩]

def dropBlanks (text : Text) : Text :=
  text.dropWhile Char.isWhitespace

/-- A number without a sign: hexadecimal, octal or decimal. -/
def unsigned? (digits : Text) : Option Nat :=
  match digits with
  | '0' :: 'x' :: rest => Numeral.ofDigits? 16 rest
  | '0' :: 'X' :: rest => Numeral.ofDigits? 16 rest
  | '0' :: rest => if rest.isEmpty then some 0 else Numeral.ofDigits? 8 rest
  | digits => Numeral.ofDigits? 10 digits

/-- A number with an optional sign. -/
def number? (text : Text) : Option Int :=
  match text with
  | '-' :: rest => (unsigned? rest).map fun value => -(value : Int)
  | '+' :: rest => (unsigned? rest).map Int.ofNat
  | rest => (unsigned? rest).map Int.ofNat

mutual

/-- An operand. -/
def operand? (lookup : Text → Text) : Nat → Text → Option (Int × Text)
  | 0, _ => none
  | fuel + 1, text =>
    match dropBlanks text with
    | '(' :: rest => do
      let (value, rest) ← expression? lookup fuel 0 rest
      match dropBlanks rest with
      | ')' :: rest => some (value, rest)
      | _ => none
    | '-' :: rest => (operand? lookup fuel rest).map fun (value, rest) => (-value, rest)
    | '+' :: rest => operand? lookup fuel rest
    | '!' :: rest => (operand? lookup fuel rest).map fun (value, rest) => (truth (value == 0), rest)
    | '~' :: rest => (operand? lookup fuel rest).map fun (value, rest) => (-value - 1, rest)
    | text => do
      let word := text.takeWhile fun character => character.isAlphanum || character == '_'
      let rest := text.drop word.length
      match word with
      | [] => none
      | first :: _ =>
        if first.isDigit then do
          let value ← unsigned? word
          some (Int.ofNat value, rest)
        else
          let content := dropBlanks (lookup word)
          if content.isEmpty then some (0, rest)
          else do
            let value ← number? content
            some (value, rest)

/-- An expression whose operators bind at least so tightly. -/
def expression? (lookup : Text → Text) : Nat → Nat → Text → Option (Int × Text)
  | 0, _, _ => none
  | fuel + 1, strength, text => do
    let (first, rest) ← operand? lookup fuel text
    operations? lookup fuel strength first rest

/-- What operators make of a first value. -/
def operations? (lookup : Text → Text) : Nat → Nat → Int → Text → Option (Int × Text)
  | 0, _, _, _ => none
  | fuel + 1, strength, first, text =>
    let text := dropBlanks text
    match operators.find? fun operator => operator.spelling.isPrefixOf text with
    | some operator =>
      if operator.strength < strength then some (first, text)
      else do
        let behind := text.drop operator.spelling.length
        let (second, rest) ← expression? lookup fuel (operator.strength + 1) behind
        let value ← operator.value? first second
        operations? lookup fuel strength value rest
    | none =>
      match text with
      | '?' :: rest =>
        if strength > 0 then some (first, text)
        else do
          let (yes, rest) ← expression? lookup fuel 0 rest
          match dropBlanks rest with
          | ':' :: rest => do
            let (no, rest) ← expression? lookup fuel 0 rest
            some (if first ≠ 0 then yes else no, rest)
          | _ => none
      | text => some (first, text)

end

/-- The value of an expression; an empty one is zero. -/
def value? (lookup : Text → Text) (text : Text) : Option Int :=
  if (dropBlanks text).isEmpty then some 0
  else
    match expression? lookup (4 * text.length + 8) 0 text with
    | some (value, rest) => if (dropBlanks rest).isEmpty then some value else none
    | none => none

/-- A number in decimal. -/
def render (value : Int) : Text :=
  if value < 0 then '-' :: Numeral.render 10 value.natAbs else Numeral.render 10 value.toNat

end RemoteBoot.Shell.Arithmetic
