import RemoteBoot.Shell.Arithmetic

/-!
# Formatted output of the shell

The commands `echo` and `printf`: escapes behind backslashes, and conversions of arguments to a
width.  A format is used again as long as it takes arguments and some are left.
-/

set_option autoImplicit false

namespace RemoteBoot.Shell.Format

def isOctal (character : Char) : Bool :=
  '0' ≤ character && character ≤ '7'

/-- The character of up to three octal digits, and the text behind them. -/
def octal (text : Text) : Char × Text :=
  let digits := (text.take 3).takeWhile isOctal
  (Char.ofNat ((Numeral.ofDigits? 8 digits).getD 0 % 256), text.drop digits.length)

/-- The escape behind a backslash. -/
def escape (text : Text) : Text × Text :=
  match text with
  | 'n' :: rest => (['\n'], rest)
  | 't' :: rest => (['\t'], rest)
  | 'r' :: rest => (['\r'], rest)
  | 'a' :: rest => (['\x07'], rest)
  | 'b' :: rest => (['\x08'], rest)
  | 'f' :: rest => (['\x0c'], rest)
  | 'v' :: rest => (['\x0b'], rest)
  | 'e' :: rest => (['\x1b'], rest)
  | '\\' :: rest => (['\\'], rest)
  | character :: _ =>
    if isOctal character then
      let (value, rest) := octal text
      ([value], rest)
    else (['\\'], text)
  | [] => (['\\'], [])

/-- A text with its escapes replaced, and whether it ends all output; the first argument bounds the
number of steps. -/
def unescapeWithin : Nat → Text → Text × Bool
  | 0, _ => ([], false)
  | _ + 1, [] => ([], false)
  | _ + 1, '\\' :: 'c' :: _ => ([], true)
  | fuel + 1, '\\' :: '0' :: rest =>
    let (value, rest) := octal rest
    let (text, ended) := unescapeWithin fuel rest
    (value :: text, ended)
  | fuel + 1, '\\' :: rest =>
    let (value, rest) := escape rest
    let (text, ended) := unescapeWithin fuel rest
    (value ++ text, ended)
  | fuel + 1, character :: rest =>
    let (text, ended) := unescapeWithin fuel rest
    (character :: text, ended)

def unescape (text : Text) : Text × Bool :=
  unescapeWithin (text.length + 1) text

/-- How one argument is converted. -/
structure Conversion where
  left : Bool := false
  zeros : Bool := false
  plus : Bool := false
  blank : Bool := false
  alternate : Bool := false
  width : Nat := 0
  precision : Option Nat := none
  kind : Char := 's'

/-- Brings a converted argument to its width; `zeroable` ones may be filled with zeros. -/
def fill (conversion : Conversion) (zeroable : Bool) (sign body : Text) : Text :=
  let length := sign.length + body.length
  if conversion.left then
    sign ++ body ++ List.replicate (conversion.width - length) ' '
  else if conversion.zeros && zeroable then
    sign ++ List.replicate (conversion.width - length) '0' ++ body
  else List.replicate (conversion.width - length) ' ' ++ sign ++ body

/-- The number that an argument spells, and whether it spells one. -/
def numberOf (argument : Text) : Int × Bool :=
  match argument with
  | [] => (0, true)
  | '\'' :: character :: _ => (Int.ofNat character.toNat, true)
  | '"' :: character :: _ => (Int.ofNat character.toNat, true)
  | argument =>
    match Arithmetic.number? (argument.dropWhile Char.isWhitespace) with
    | some value => (value, true)
    | none => (0, false)

/-- A converted argument, and whether it was well formed. -/
def convert (conversion : Conversion) (argument : Text) : Text × Bool :=
  let digits (base : Nat) (value : Nat) : Text :=
    Numeral.padLeft (conversion.precision.getD 0) '0' (Numeral.render base value)
  let zeroable := conversion.precision.isNone
  match conversion.kind with
  | 's' => (fill conversion false [] (argument.take (conversion.precision.getD argument.length)),
      true)
  | 'b' =>
    let (text, _) := unescape argument
    (fill conversion false [] (text.take (conversion.precision.getD text.length)), true)
  | 'c' => (fill conversion false [] (argument.take 1), true)
  | kind =>
    let (value, wellFormed) := numberOf argument
    let unsigned := (if value < 0 then 0x10000000000000000 + value else value).toNat
    if kind = 'd' ∨ kind = 'i' then
      let sign : Text :=
        if value < 0 then ['-']
        else if conversion.plus then ['+']
        else if conversion.blank then [' ']
        else []
      (fill conversion zeroable sign (digits 10 value.natAbs), wellFormed)
    else if kind = 'u' then (fill conversion zeroable [] (digits 10 unsigned), wellFormed)
    else if kind = 'o' then
      (fill conversion zeroable (if conversion.alternate then ['0'] else []) (digits 8 unsigned),
        wellFormed)
    else if kind = 'x' then
      (fill conversion zeroable (if conversion.alternate then ['0', 'x'] else [])
        (digits 16 unsigned), wellFormed)
    else
      (fill conversion zeroable (if conversion.alternate then ['0', 'X'] else [])
        ((digits 16 unsigned).map Char.toUpper), wellFormed)

/-- The flags at the head of a conversion. -/
def flags : Conversion → Text → Conversion × Text
  | conversion, '-' :: rest => flags { conversion with left := true } rest
  | conversion, '0' :: rest => flags { conversion with zeros := true } rest
  | conversion, '+' :: rest => flags { conversion with plus := true } rest
  | conversion, ' ' :: rest => flags { conversion with blank := true } rest
  | conversion, '#' :: rest => flags { conversion with alternate := true } rest
  | conversion, rest => (conversion, rest)

/-- A number in a conversion: written out, or taken from the arguments. -/
def size (text : Text) (arguments : List Text) : Option Nat × Text × List Text :=
  match text with
  | '*' :: rest =>
    (some (numberOf (arguments.headD [])).1.toNat, rest, arguments.drop 1)
  | text =>
    let digits := text.takeWhile Char.isDigit
    (Numeral.ofDigits? 10 digits, text.drop digits.length, arguments)

/-- What one pass over a format gives. -/
structure Pass where
  text : Text
  arguments : List Text
  wellFormed : Bool
  took : Bool

/-- One pass over a format; the first argument bounds the number of steps. -/
def pass : Nat → Text → List Text → Pass
  | 0, _, arguments => ⟨[], arguments, true, false⟩
  | _ + 1, [], arguments => ⟨[], arguments, true, false⟩
  | fuel + 1, '%' :: '%' :: rest, arguments =>
    let others := pass fuel rest arguments
    { others with text := '%' :: others.text }
  | fuel + 1, '%' :: rest, arguments =>
    let (conversion, rest) := flags {} rest
    let (width, rest, arguments) := size rest arguments
    let (precision, rest, arguments) :=
      match rest with
      | '.' :: rest =>
        let (precision, rest, arguments) := size rest arguments
        (some (precision.getD 0), rest, arguments)
      | rest => (none, rest, arguments)
    match rest with
    | kind :: rest =>
      if ['d', 'i', 'u', 'o', 'x', 'X', 's', 'b', 'c'].contains kind then
        let conversion := { conversion with width := width.getD 0, precision, kind }
        let (text, wellFormed) := convert conversion (arguments.headD [])
        let others := pass fuel rest (arguments.drop 1)
        ⟨text ++ others.text, others.arguments, wellFormed && others.wellFormed, true⟩
      else ⟨[], arguments, false, false⟩
    | [] => ⟨[], arguments, false, false⟩
  | fuel + 1, '\\' :: rest, arguments =>
    let (text, rest) := escape rest
    let others := pass fuel rest arguments
    { others with text := text ++ others.text }
  | fuel + 1, character :: rest, arguments =>
    let others := pass fuel rest arguments
    { others with text := character :: others.text }

/-- Passes over a format until no argument is left; the first argument bounds their number. -/
def passes (format : Text) : Nat → List Text → Text × Bool
  | 0, _ => ([], true)
  | fuel + 1, arguments =>
    let first := pass (format.length + 1) format arguments
    if first.took && first.wellFormed && !first.arguments.isEmpty then
      let (text, wellFormed) := passes format fuel first.arguments
      (first.text ++ text, wellFormed)
    else (first.text, first.wellFormed)

/-- What `printf` prints, and whether every argument was well formed. -/
def print (format : Text) (arguments : List Text) : Text × Bool :=
  passes format (arguments.length + 1) arguments

/-- What `echo` prints. -/
def echo (arguments : List Text) : Text :=
  let (words, ending) : List Text × Text :=
    match arguments with
    | ['-', 'n'] :: words => (words, [])
    | words => (words, ['\n'])
  let (text, ended) := unescape ((words.intersperse [' ']).flatten)
  if ended then text else text ++ ending

end RemoteBoot.Shell.Format
