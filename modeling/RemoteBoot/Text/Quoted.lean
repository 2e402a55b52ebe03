import RemoteBoot.Text.Numeral

/-!
# Quoted text

Text as the journal quotes it: in double quotes, with the usual short escapes and a code point in
braces for the other control characters.
-/

set_option autoImplicit false

namespace RemoteBoot.Quoted

def isControl (character : Char) : Bool :=
  character.toNat < 0x20 || (0x7f ≤ character.toNat && character.toNat < 0xa0)

/-- One character inside quotes. -/
def escape (character : Char) : Text :=
  if character = '"' then ['\\', '"']
  else if character = '\\' then ['\\', '\\']
  else if character = '\n' then ['\\', 'n']
  else if character = '\r' then ['\\', 'r']
  else if character = '\t' then ['\\', 't']
  else if character.toNat = 0 then ['\\', '0']
  else if isControl character then
    ['\\', 'u', '\x7b'] ++ Numeral.render 16 character.toNat ++ ['\x7d']
  else [character]

def quote (text : Text) : String :=
  String.ofList (['"'] ++ text.flatMap escape ++ ['"'])

end RemoteBoot.Quoted
