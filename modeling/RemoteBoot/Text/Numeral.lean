/-!
# Numerals

Numbers as text, in both directions.  `render` writes a number in a base with no superfluous zeros.
Two grammars are read: a manifest address is hexadecimal with an optional mark `0x`, and a command
line number is decimal unless it carries that mark.  Both allow one leading plus sign and stop at
numbers of 64 bits.
-/

set_option autoImplicit false

namespace RemoteBoot

abbrev Text := List Char

namespace Numeral

/-- The digit of a value below 16, in lower case. -/
def digit (value : Nat) : Char :=
  if value < 10 then Char.ofNat (48 + value) else Char.ofNat (87 + value)

/-- The digits of a number in a base, most significant first. -/
def render (base value : Nat) : Text :=
  if value < base ∨ base < 2 then [digit value]
  else render base (value / base) ++ [digit (value % base)]
termination_by value
decreasing_by
  exact Nat.div_lt_self (by omega) (by omega)

/-- Text made at least `width` characters long by a filler in front. -/
def padLeft (width : Nat) (filler : Char) (text : Text) : Text :=
  List.replicate (width - text.length) filler ++ text

/-- Text made at least `width` characters long by blanks behind. -/
def padRight (width : Nat) (text : Text) : Text :=
  text ++ List.replicate (width - text.length) ' '

/-- Lower-case hexadecimal digits behind the mark `0x`. -/
def marked (value : Nat) : Text :=
  '0' :: 'x' :: render 16 value

/-- A number as messages show addresses. -/
def hex (value : Nat) : String :=
  String.ofList (marked value)

/-- A marked number filled with zeros to a width that counts the mark. -/
def paddedHex (width value : Nat) : String :=
  String.ofList ('0' :: 'x' :: padLeft (width - 2) '0' (render 16 value))

/-- Hexadecimal digits without a mark, filled with zeros. -/
def bareHex (width value : Nat) : String :=
  String.ofList (padLeft width '0' (render 16 value))

def decimal (value : Nat) : String :=
  String.ofList (render 10 value)

/-- The value of an ASCII digit or letter of either case. -/
def digitValue? (character : Char) : Option Nat :=
  let code := character.toNat
  if 48 ≤ code ∧ code ≤ 57 then some (code - 48)
  else if 97 ≤ code ∧ code ≤ 122 then some (code - 87)
  else if 65 ≤ code ∧ code ≤ 90 then some (code - 55)
  else none

/-- Reads one more digit of a base behind the value read so far. -/
def extend? (base : Nat) (value : Nat) (character : Char) : Option Nat :=
  match digitValue? character with
  | some next => if next < base then some (value * base + next) else none
  | none => none

/-- The value of one or more digits of a base. -/
def ofDigits? (base : Nat) (digits : Text) : Option Nat :=
  if digits.isEmpty then none else digits.foldlM (extend? base) 0

/-- Drops one leading plus sign. -/
def dropPlus : Text → Text
  | '+' :: rest => rest
  | text => text

/-- A number of 64 bits in a base, with an optional plus sign. -/
def unsigned? (base : Nat) (text : Text) : Option Nat :=
  match ofDigits? base (dropPlus text) with
  | some value => if value < 0x10000000000000000 then some value else none
  | none => none

/-- What follows a mark `0x` or `0X`. -/
def afterMark? : Text → Option Text
  | '0' :: 'x' :: rest => some rest
  | '0' :: 'X' :: rest => some rest
  | _ => none

/-- A manifest address: hexadecimal, the mark is optional. -/
def address? (text : Text) : Option Nat :=
  unsigned? 16 ((afterMark? text).getD text)

/-- A command line number: hexadecimal behind the mark, decimal without it. -/
def argument? (text : Text) : Option Nat :=
  match afterMark? text with
  | some digits => unsigned? 16 digits
  | none => unsigned? 10 text

end Numeral
end RemoteBoot
