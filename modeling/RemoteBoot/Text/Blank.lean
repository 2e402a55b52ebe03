import RemoteBoot.Text.Numeral

/-!
# Blank characters

The Unicode property White_Space, and the operations that cut text at it.
-/

set_option autoImplicit false

namespace RemoteBoot.Blank

/-- The ranges of code points with the property White_Space. -/
def ranges : List (Nat × Nat) :=
  [(0x09, 0x0d), (0x20, 0x20), (0x85, 0x85), (0xa0, 0xa0), (0x1680, 0x1680), (0x2000, 0x200a),
    (0x2028, 0x2029), (0x202f, 0x202f), (0x205f, 0x205f), (0x3000, 0x3000)]

def isBlank (character : Char) : Bool :=
  ranges.any fun (low, high) => low ≤ character.toNat && character.toNat ≤ high

/-- Drops blanks in front. -/
def trimLeft (text : Text) : Text :=
  text.dropWhile isBlank

/-- Drops blanks behind. -/
def trimRight (text : Text) : Text :=
  (text.reverse.dropWhile isBlank).reverse

def trim (text : Text) : Text :=
  trimRight (trimLeft text)

/-- The first run of characters that are not blank; empty if all are. -/
def firstWord (text : Text) : Text :=
  (trimLeft text).takeWhile fun character => !isBlank character

/-- Text cut at its first blank, which is dropped. -/
def cut (text : Text) : Text × Text :=
  (text.takeWhile fun character => !isBlank character,
    (text.dropWhile fun character => !isBlank character).drop 1)

end RemoteBoot.Blank
