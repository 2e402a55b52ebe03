import RemoteBoot.Json.Value
import RemoteBoot.Proofs.Text.Numerals

/-!
# The grammar of JSON

Which texts write which values, said without the reader.  A string is a sequence of UTF-16 units: a
character that stands for itself gives its one or two units, an escape gives one.  The string has a
text if these units are the units of one.  A number keeps a value only if it is digits alone.
-/

set_option autoImplicit false

namespace RemoteBoot.Json

def blanks : Text := [' ', '\t', '\n', '\r']

def Blank (text : Text) : Prop :=
  ∀ character ∈ text, character ∈ blanks

/-- The UTF-16 units of a character. -/
def units (character : Char) : List Nat :=
  let code := character.toNat
  if code < 0x10000 then [code]
  else [0xd800 + (code - 0x10000) / 0x400, 0xdc00 + (code - 0x10000) % 0x400]

/-- Units are those of a text, or of no text. -/
def Means (codes : List Nat) : Option Text → Prop
  | some text => codes = text.flatMap units
  | none => ∀ text : Text, codes ≠ text.flatMap units

/-- The characters that a backslash may stand before, each with the unit that the two give. -/
def escapes : List (Char × Nat) :=
  [('"', 0x22), ('\\', 0x5c), ('/', 0x2f), ('b', 0x08), ('f', 0x0c), ('n', 0x0a), ('r', 0x0d),
    ('t', 0x09)]

/-- What stands between two quotes, with its units. -/
inductive Body : Text → List Nat → Prop
  | empty : Body [] []
  | plain {character : Char} {text : Text} {codes : List Nat} (printable : 0x20 ≤ character.toNat)
      (unquoted : character ≠ '"') (unescaped : character ≠ '\\') (behind : Body text codes) :
      Body (character :: text) (units character ++ codes)
  | short {mark : Char} {code : Nat} {text : Text} {codes : List Nat}
      (listed : (mark, code) ∈ escapes) (behind : Body text codes) :
      Body ('\\' :: mark :: text) (code :: codes)
  | long {digits text : Text} {code : Nat} {codes : List Nat} (four : digits.length = 4)
      (spells : Numeral.Spells 16 digits code) (behind : Body text codes) :
      Body ('\\' :: 'u' :: digits ++ text) (code :: codes)

inductive Quoted : Text → Option Text → Prop
  | mk {body : Text} {codes : List Nat} {content : Option Text} (within : Body body codes)
      (means : Means codes content) : Quoted ('"' :: body ++ ['"']) content

/-- Digits of a whole number: no zero stands in front of another digit. -/
def Whole (digits : Text) (number : Nat) : Prop :=
  Numeral.Spells 10 digits number ∧ (digits.head? = some '0' → digits = ['0'])

inductive Fraction : Text → Prop
  | absent : Fraction []
  | point {digits : Text} {number : Nat} (spells : Numeral.Spells 10 digits number) :
      Fraction ('.' :: digits)

inductive Exponent : Text → Prop
  | absent : Exponent []
  | power {mark : Char} {sign digits : Text} {number : Nat} (marked : mark ∈ ['e', 'E'])
      (signed : sign ∈ [[], ['+'], ['-']]) (spells : Numeral.Spells 10 digits number) :
      Exponent (mark :: sign ++ digits)

inductive Number : Text → Option Nat → Prop
  | whole {digits : Text} {number : Nat} (whole : Whole digits number) :
      Number digits (some number)
  | other {sign digits fraction exponent : Text} {number : Nat} (signed : sign ∈ [[], ['-']])
      (whole : Whole digits number) (fractional : Fraction fraction) (scaled : Exponent exponent)
      (more : sign ++ fraction ++ exponent ≠ []) :
      Number (sign ++ digits ++ fraction ++ exponent) none

mutual

inductive Value : Text → Json → Prop
  | null : Value "null".toList .null
  | true : Value "true".toList (.bool true)
  | false : Value "false".toList (.bool false)
  | number {text : Text} {whole : Option Nat} (written : Number text whole) :
      Value text (.number whole)
  | string {text : Text} {content : Option Text} (quoted : Quoted text content) :
      Value text (.string content)
  | emptyArray {text : Text} (blank : Blank text) : Value ('[' :: text ++ [']']) (.array [])
  | array {text : Text} {items : List Json} (listed : Items text items) :
      Value ('[' :: text ++ [']']) (.array items)
  | emptyObject {text : Text} (blank : Blank text) :
      Value ('\x7b' :: text ++ ['\x7d']) (.object [])
  | object {text : Text} {members : List (Option Text × Json)} (listed : Members text members) :
      Value ('\x7b' :: text ++ ['\x7d']) (.object members)

/-- One value with blanks around it. -/
inductive Document : Text → Json → Prop
  | mk {front text back : Text} {json : Json} (before : Blank front) (value : Value text json)
      (after : Blank back) : Document (front ++ text ++ back) json

/-- One or more values between commas. -/
inductive Items : Text → List Json → Prop
  | last {text : Text} {item : Json} (value : Document text item) : Items text [item]
  | more {text others : Text} {item : Json} {items : List Json} (value : Document text item)
      (behind : Items others items) : Items (text ++ ',' :: others) (item :: items)

inductive Member : Text → Option Text × Json → Prop
  | mk {front quoted back text : Text} {name : Option Text} {value : Json} (before : Blank front)
      (named : Quoted quoted name) (after : Blank back) (valued : Document text value) :
      Member (front ++ quoted ++ back ++ ':' :: text) (name, value)

/-- One or more members between commas. -/
inductive Members : Text → List (Option Text × Json) → Prop
  | last {text : Text} {member : Option Text × Json} (written : Member text member) :
      Members text [member]
  | more {text others : Text} {member : Option Text × Json} {members : List (Option Text × Json)}
      (written : Member text member) (behind : Members others members) :
      Members (text ++ ',' :: others) (member :: members)

end

end RemoteBoot.Json
