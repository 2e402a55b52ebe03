import RemoteBoot.Word
import RemoteBoot.Text.Numeral

/-!
# UTF-8

Text as bytes.  The decoder takes one character at a time; where none can be read it says how long
the rejected part is: a byte that cannot continue the sequence ends the part in front of it, and a
sequence that the end of the input cuts off is incomplete.  Strict decoding reports the first such
part and where it starts, lossy decoding puts a replacement character in the place of each.
-/

set_option autoImplicit false

namespace RemoteBoot.Utf8

/-- A byte that carries six further bits. -/
def continuation (value : Nat) : Byte :=
  UInt8.ofNat (128 + value % 64)

/-- The bytes of one character. -/
def encodeChar (character : Char) : Bytes :=
  let code := character.toNat
  if code < 0x80 then [UInt8.ofNat code]
  else if code < 0x800 then [UInt8.ofNat (192 + code / 64), continuation code]
  else if code < 0x10000 then
    [UInt8.ofNat (224 + code / 4096), continuation (code / 64), continuation code]
  else
    [UInt8.ofNat (240 + code / 262144), continuation (code / 4096), continuation (code / 64),
      continuation code]

def encode (text : Text) : Bytes :=
  text.flatMap encodeChar

/-- What a first byte asks for: how many bytes follow and the range of the next one. -/
structure Lead where
  following : Nat
  low : Nat
  high : Nat
  bits : Nat

/-- No byte below 0x80 and no byte that starts no sequence has a lead. -/
def lead? (byte : Byte) : Option Lead :=
  let value := byte.toNat
  if value < 0xc2 then none
  else if value < 0xe0 then some ⟨1, 0x80, 0xbf, value - 0xc0⟩
  else if value = 0xe0 then some ⟨2, 0xa0, 0xbf, 0⟩
  else if value = 0xed then some ⟨2, 0x80, 0x9f, 13⟩
  else if value < 0xf0 then some ⟨2, 0x80, 0xbf, value - 0xe0⟩
  else if value = 0xf0 then some ⟨3, 0x90, 0xbf, 0⟩
  else if value < 0xf4 then some ⟨3, 0x80, 0xbf, value - 0xf0⟩
  else if value = 0xf4 then some ⟨3, 0x80, 0x8f, 4⟩
  else none

/-- One step of decoding at the head of the input. -/
inductive Step where
  /-- A character and the bytes behind it. -/
  | character (value : Char) (rest : Bytes)
  /-- A part of this length is no character, and what follows it. -/
  | invalid (length : Nat) (rest : Bytes)
  /-- The input ends inside a sequence. -/
  | incomplete

/-- Reads the bytes that follow a lead; `taken` have been read, the lead included. -/
def follow (bits low high taken : Nat) : Nat → Bytes → Step
  | 0, rest => .character (Char.ofNat bits) rest
  | _ + 1, [] => .incomplete
  | following + 1, byte :: rest =>
    if low ≤ byte.toNat ∧ byte.toNat ≤ high then
      follow (bits * 64 + (byte.toNat - 128)) 0x80 0xbf (taken + 1) following rest
    else .invalid taken (byte :: rest)

/-- Decodes at a first byte. -/
def step (byte : Byte) (rest : Bytes) : Step :=
  if byte.toNat < 0x80 then .character (Char.ofNat byte.toNat) rest
  else
    match lead? byte with
    | some lead => follow lead.bits lead.low lead.high 1 lead.following rest
    | none => .invalid 1 rest

/-- Why bytes are not text, and where. -/
inductive Defect where
  | invalid (length index : Nat)
  | incomplete (index : Nat)
  deriving DecidableEq, Repr

def Defect.message : Defect → String
  | .invalid length index =>
    s!"invalid utf-8 sequence of {length} bytes from index {index}"
  | .incomplete index => s!"incomplete utf-8 byte sequence from index {index}"

theorem length_rest_follow {bits low high taken following : Nat} {bytes rest : Bytes} :
    (∀ value, follow bits low high taken following bytes = .character value rest →
      rest.length ≤ bytes.length) ∧
    (∀ length, follow bits low high taken following bytes = .invalid length rest →
      rest.length ≤ bytes.length) := by
  induction following generalizing bits low high taken bytes with
  | zero =>
    constructor
    · intro value found
      simp only [follow, Step.character.injEq] at found
      simp [found.2]
    · intro length found
      simp [follow] at found
  | succ following ih =>
    cases bytes with
    | nil => simp [follow]
    | cons byte bytes =>
      simp only [follow]
      split
      · constructor
        · intro value found
          have := ih.1 value found
          simp only [List.length_cons]
          omega
        · intro length found
          have := ih.2 length found
          simp only [List.length_cons]
          omega
      · constructor
        · intro value found
          cases found
        · intro length found
          cases found
          exact Nat.le_refl _

theorem length_rest_step {byte : Byte} {bytes rest : Bytes} :
    (∀ value, step byte bytes = .character value rest → rest.length < (byte :: bytes).length) ∧
    (∀ length, step byte bytes = .invalid length rest →
      rest.length < (byte :: bytes).length) := by
  unfold step
  split
  · constructor
    · intro value found
      cases found
      exact Nat.lt_succ_self _
    · intro length found
      cases found
  · split
    · constructor
      · intro value found
        exact Nat.lt_succ_of_le (length_rest_follow.1 value found)
      · intro length found
        exact Nat.lt_succ_of_le (length_rest_follow.2 length found)
    · constructor
      · intro value found
        cases found
      · intro length found
        cases found
        exact Nat.lt_succ_self _

/-- Decodes bytes of which `index` have been passed. -/
def decodeFrom (index : Nat) (bytes : Bytes) : Except Defect Text :=
  match bytes with
  | [] => .ok []
  | byte :: bytes =>
    match found : step byte bytes with
    | .character value rest =>
      have _shorter := Nat.le_of_lt_succ (length_rest_step.1 value found)
      match decodeFrom (index + value.utf8Size) rest with
      | .ok text => .ok (value :: text)
      | .error defect => .error defect
    | .invalid length _ => .error (.invalid length index)
    | .incomplete => .error (.incomplete index)
termination_by bytes.length

/-- The text that bytes encode, or their first defect. -/
def decode (bytes : Bytes) : Except Defect Text :=
  decodeFrom 0 bytes

/-- The text that bytes encode, each rejected part shown as U+FFFD. -/
def decodeLossy (bytes : Bytes) : Text :=
  match bytes with
  | [] => []
  | byte :: bytes =>
    match found : step byte bytes with
    | .character value rest =>
      have _shorter := Nat.le_of_lt_succ (length_rest_step.1 value found)
      value :: decodeLossy rest
    | .invalid length rest =>
      have _shorter := Nat.le_of_lt_succ (length_rest_step.2 length found)
      '\uFFFD' :: decodeLossy rest
    | .incomplete => ['\uFFFD']
termination_by bytes.length

end RemoteBoot.Utf8
