import RemoteBoot.Text.Numeral

/-!
# JSON values

Values as settings need them.  A number is kept only if it is written as a whole number without a
sign, a fraction or an exponent.  A string may hold half of a surrogate pair, which stands for no
character; such a string has no text.
-/

set_option autoImplicit false

namespace RemoteBoot

inductive Json where
  | null
  | bool (value : Bool)
  | number (whole : Option Nat)
  | string (text : Option Text)
  | array (items : List Json)
  | object (members : List (Option Text × Json))

end RemoteBoot
