import RemoteBoot.Proofs.Text.Utf8

/-!
# Decoding part by part

Bytes that can be decoded are the bytes of the text they give.  Behind the bytes of a text the rest
is decoded by itself, with its defect so much further in.  A defect in front of a single-byte
character is found whatever stands behind.
-/

set_option autoImplicit false

namespace RemoteBoot.Utf8

section Steps

theorem lead_cases {byte : Byte} {following low high bits : Nat}
    (found : lead? byte = some ⟨following, low, high, bits⟩) :
    (following = 1 ∧ byte.toNat = 192 + bits ∧ 2 ≤ bits ∧ bits < 32 ∧ low = 0x80 ∧ high = 0xbf) ∨
    (following = 2 ∧ byte.toNat = 224 + bits ∧ bits < 16 ∧ 0x80 ≤ low ∧ high ≤ 0xbf ∧
      (bits = 0 → low = 0xa0) ∧ (bits = 13 → high = 0x9f)) ∨
    (following = 3 ∧ byte.toNat = 240 + bits ∧ bits < 5 ∧ 0x80 ≤ low ∧ high ≤ 0xbf ∧
      (bits = 0 → low = 0x90) ∧ (bits = 4 → high = 0x8f)) := by
  simp only [lead?] at found
  repeat' split at found
  all_goals cases found
  all_goals omega

theorem follow_character {bits low high taken following : Nat} {bytes after : Bytes} {value : Char}
    (read : follow bits low high taken (following + 1) bytes = .character value after) :
    ∃ byte rest, bytes = byte :: rest ∧ low ≤ byte.toNat ∧ byte.toNat ≤ high ∧
      follow (bits * 64 + (byte.toNat - 128)) 0x80 0xbf (taken + 1) following rest =
        .character value after := by
  cases bytes with
  | nil => cases read
  | cons byte rest =>
      rw [follow] at read
      split at read
      · next inside => exact ⟨byte, rest, rfl, inside.1, inside.2, read⟩
      · cases read

theorem follow_done {bits low high taken : Nat} {bytes : Bytes} {result : Step}
    (read : follow bits low high taken 0 bytes = result) :
    Step.character (Char.ofNat bits) bytes = result := by
  rw [← read, follow]

theorem byte_of_to_nat {byte : Byte} {value : Nat} (same : value = byte.toNat) :
    UInt8.ofNat value = byte := by
  rw [same, UInt8.ofNat_toNat]

/-- A continuation byte is told by its six bits. -/
theorem continuation_of_byte {byte : Byte} {value : Nat} (above : 0x80 ≤ byte.toNat)
    (below : byte.toNat ≤ 0xbf) (bits : value % 64 = byte.toNat - 128) :
    continuation value = byte := by
  apply byte_of_to_nat
  omega

theorem to_nat_of_code {code : Nat} (valid : code < 0xd800 ∨ 0xdfff < code ∧ code < 0x110000) :
    (Char.ofNat code).toNat = code := by
  have inside : code.isValidChar := valid
  rw [Char.ofNat, dif_pos inside]
  rfl

/-- The bytes that a step takes are those of its character. -/
theorem encode_of_step {byte : Byte} {rest after : Bytes} {value : Char}
    (read : step byte rest = .character value after) : encodeChar value ++ after = byte :: rest := by
  have small := byte.toNat_lt
  unfold step at read
  split at read
  · next ascii =>
    cases read
    rw [encodeChar, to_nat_of_code (Or.inl (by omega)), if_pos ascii, UInt8.ofNat_toNat]
    rfl
  · split at read
    · next lead found =>
      obtain ⟨following, low, high, bits⟩ := lead
      change follow bits low high 1 following rest = _ at read
      rcases lead_cases found with ⟨rfl, first, some, few, rfl, rfl⟩ |
          ⟨rfl, first, few, above, below, short, surrogate⟩ |
          ⟨rfl, first, few, above, below, short, large⟩
      · obtain ⟨second, tail, rfl, above, below, read⟩ := follow_character read
        obtain ⟨rfl, rfl⟩ := Step.character.inj (follow_done read)
        rw [encodeChar, to_nat_of_code (by omega), if_neg (by omega), if_pos (by omega),
          byte_of_to_nat (by omega : _ = byte.toNat),
          continuation_of_byte above below (by omega)]
        rfl
      · obtain ⟨second, tail, rfl, aboveSecond, belowSecond, read⟩ := follow_character read
        obtain ⟨third, tail, rfl, aboveThird, belowThird, read⟩ := follow_character read
        obtain ⟨rfl, rfl⟩ := Step.character.inj (follow_done read)
        rw [encodeChar, to_nat_of_code (by omega), if_neg (by omega), if_neg (by omega),
          if_pos (by omega), byte_of_to_nat (by omega : _ = byte.toNat),
          continuation_of_byte (by omega : 0x80 ≤ second.toNat) (by omega) (by omega),
          continuation_of_byte aboveThird belowThird (by omega)]
        rfl
      · obtain ⟨second, tail, rfl, aboveSecond, belowSecond, read⟩ := follow_character read
        obtain ⟨third, tail, rfl, aboveThird, belowThird, read⟩ := follow_character read
        obtain ⟨fourth, tail, rfl, aboveFourth, belowFourth, read⟩ := follow_character read
        obtain ⟨rfl, rfl⟩ := Step.character.inj (follow_done read)
        rw [encodeChar, to_nat_of_code (by omega), if_neg (by omega), if_neg (by omega),
          if_neg (by omega), byte_of_to_nat (by omega : _ = byte.toNat),
          continuation_of_byte (by omega : 0x80 ≤ second.toNat) (by omega) (by omega),
          continuation_of_byte aboveThird belowThird (by omega),
          continuation_of_byte aboveFourth belowFourth (by omega)]
        rfl
    · cases read

/-- What is read stays read with more bytes behind. -/
theorem follow_append {bits low high taken following : Nat} {bytes after : Bytes} (more : Bytes) :
    (∀ value, follow bits low high taken following bytes = .character value after →
      follow bits low high taken following (bytes ++ more) = .character value (after ++ more)) ∧
    (∀ length, follow bits low high taken following bytes = .invalid length after →
      follow bits low high taken following (bytes ++ more) = .invalid length (after ++ more)) := by
  induction following generalizing bits low high taken bytes with
  | zero =>
      constructor
      · intro value read
        cases read
        rfl
      · intro length read
        cases read
  | succ following ih =>
      cases bytes with
      | nil =>
          constructor
          · intro value read
            cases read
          · intro length read
            cases read
      | cons byte bytes =>
          rw [List.cons_append, follow, follow]
          split
          · exact ih
          · constructor
            · intro value read
              cases read
            · intro length read
              cases read
              rfl

theorem step_append {byte : Byte} {rest after : Bytes} (more : Bytes) :
    (∀ value, step byte rest = .character value after →
      step byte (rest ++ more) = .character value (after ++ more)) ∧
    (∀ length, step byte rest = .invalid length after →
      step byte (rest ++ more) = .invalid length (after ++ more)) := by
  rw [step, step]
  split
  · constructor
    · intro value read
      cases read
      rfl
    · intro length read
      cases read
  · cases lead? byte with
    | some lead => exact follow_append more
    | none =>
        constructor
        · intro value read
          cases read
        · intro length read
          cases read
          rfl

theorem follow_incomplete {bits low high taken following : Nat} {bytes : Bytes} (above : 0x80 ≤ low)
    (cut : follow bits low high taken following bytes = .incomplete) :
    ∀ byte ∈ bytes, 0x80 ≤ byte.toNat := by
  induction following generalizing bits low high taken bytes with
  | zero => cases cut
  | succ following ih =>
      cases bytes with
      | nil =>
          intro byte member
          cases member
      | cons byte bytes =>
          rw [follow] at cut
          split at cut
          · next inside => exact List.forall_mem_cons.mpr ⟨Nat.le_trans above inside.1, ih (Nat.le_refl _) cut⟩
          · cases cut

/-- A sequence that the end cuts off has no byte that is a character by itself. -/
theorem step_incomplete {byte : Byte} {rest : Bytes} (cut : step byte rest = .incomplete) :
    ∀ other ∈ byte :: rest, 0x80 ≤ other.toNat := by
  unfold step at cut
  split at cut
  · cases cut
  · next large =>
    split at cut
    · next lead found =>
      obtain ⟨following, low, high, bits⟩ := lead
      have above : 0x80 ≤ low := by
        rcases lead_cases found with parts | parts | parts <;> omega
      exact List.forall_mem_cons.mpr ⟨Nat.le_of_not_lt large, follow_incomplete above cut⟩
    · cases cut

end Steps

section Decoding

theorem decode_from_character {byte : Byte} {rest after : Bytes} {value : Char}
    (read : step byte rest = .character value after) (index : Nat) :
    decodeFrom index (byte :: rest) =
      (decodeFrom (index + value.utf8Size) after).map fun text => value :: text := by
  rw [decodeFrom]
  split
  · next other behind found =>
    rw [read] at found
    cases found
    cases decodeFrom (index + value.utf8Size) after <;> rfl
  · next found =>
    rw [read] at found
    cases found
  · next found =>
    rw [read] at found
    cases found

theorem decode_from_invalid {byte : Byte} {rest after : Bytes} {length : Nat}
    (read : step byte rest = .invalid length after) (index : Nat) :
    decodeFrom index (byte :: rest) = .error (.invalid length index) := by
  rw [decodeFrom]
  split
  · next found =>
    rw [read] at found
    cases found
  · next found =>
    rw [read] at found
    cases found
    rfl
  · next found =>
    rw [read] at found
    cases found

theorem decode_from_incomplete {byte : Byte} {rest : Bytes} (read : step byte rest = .incomplete)
    (index : Nat) : decodeFrom index (byte :: rest) = .error (.incomplete index) := by
  rw [decodeFrom]
  split
  · next found =>
    rw [read] at found
    cases found
  · next found =>
    rw [read] at found
    cases found
  · rfl

/-- Bytes are none, or a character in front of fewer bytes, or they begin with a defect. -/
theorem bytes_induction {motive : Bytes → Prop} (nil : motive [])
    (character : ∀ byte rest value after, step byte rest = .character value after → motive after →
      motive (byte :: rest))
    (invalid : ∀ byte rest length after, step byte rest = .invalid length after →
      motive (byte :: rest))
    (incomplete : ∀ byte rest, step byte rest = .incomplete → motive (byte :: rest))
    (bytes : Bytes) : motive bytes := by
  induction counted : bytes.length using Nat.strongRecOn generalizing bytes with
  | ind count ih =>
      cases bytes with
      | nil => exact nil
      | cons byte rest =>
          cases read : step byte rest with
          | character value after =>
              have fewer := length_rest_step.1 value read
              rw [counted] at fewer
              exact character byte rest value after read (ih _ fewer after rfl)
          | invalid length after => exact invalid byte rest length after read
          | incomplete => exact incomplete byte rest read

/-- Bytes that are decoded are those of the text. -/
theorem encode_of_decoded {index : Nat} {bytes : Bytes} {text : Text}
    (decoded : decodeFrom index bytes = .ok text) : encode text = bytes := by
  induction bytes using bytes_induction generalizing index text with
  | nil =>
      rw [decodeFrom] at decoded
      cases decoded
      rfl
  | character byte rest value after read ih =>
      rw [decode_from_character read] at decoded
      cases behind : decodeFrom (index + value.utf8Size) after with
      | error defect =>
          rw [behind] at decoded
          cases decoded
      | ok others =>
          rw [behind] at decoded
          cases decoded
          have bytes := ih behind
          rw [encode] at bytes
          rw [encode, List.flatMap_cons, bytes, encode_of_step read]
  | invalid byte rest length after read =>
      rw [decode_from_invalid read] at decoded
      cases decoded
  | incomplete byte rest read =>
      rw [decode_from_incomplete read] at decoded
      cases decoded

/-- The defect of bytes that stand so much further in. -/
def Defect.later (distance : Nat) : Defect → Defect
  | .invalid length index => .invalid length (index + distance)
  | .incomplete index => .incomplete (index + distance)

theorem decode_from_later (distance index : Nat) (bytes : Bytes) :
    decodeFrom (index + distance) bytes = (decodeFrom index bytes).mapError (Defect.later distance) := by
  induction bytes using bytes_induction generalizing index with
  | nil =>
      rw [decodeFrom, decodeFrom]
      rfl
  | character byte rest value after read ih =>
      rw [decode_from_character read, decode_from_character read, Nat.add_right_comm, ih]
      cases decodeFrom (index + value.utf8Size) after <;> rfl
  | invalid byte rest length after read =>
      rw [decode_from_invalid read, decode_from_invalid read]
      rfl
  | incomplete byte rest read =>
      rw [decode_from_incomplete read, decode_from_incomplete read]
      rfl

theorem length_encode_char (character : Char) :
    (encodeChar character).length = character.utf8Size := by
  have code : character.val.toNat = character.toNat := rfl
  simp only [encodeChar, Char.utf8Size, UInt32.le_iff_toNat_le, code]
  repeat' split
  all_goals simp_all
  all_goals omega

theorem encode_append (text other : Text) : encode (text ++ other) = encode text ++ encode other :=
  List.flatMap_append

theorem last_encode_char (character : Char) :
    (encodeChar character = [UInt8.ofNat character.toNat] ∧ character.toNat < 0x80) ∨
      ∃ front value, encodeChar character = front ++ [continuation value] := by
  rw [encodeChar]
  split
  · next ascii => exact Or.inl ⟨rfl, ascii⟩
  · split
    · exact Or.inr ⟨[_], _, rfl⟩
    · split
      · exact Or.inr ⟨[_, _], _, rfl⟩
      · exact Or.inr ⟨[_, _, _], _, rfl⟩

/-- A byte that is a character by itself ends a text only as its last character. -/
theorem last_of_encode {text : Text} {before : Bytes} {last : Byte}
    (bytes : encode text = before ++ [last]) (single : last.toNat < 0x80) :
    ∃ front, text = front ++ [Char.ofNat last.toNat] ∧ encode front = before := by
  rcases List.eq_nil_or_concat text with rfl | ⟨front, character, rfl⟩
  · exact absurd bytes.symm (List.append_ne_nil_of_right_ne_nil before (List.cons_ne_nil _ _))
  · have character_bytes : encode [character] = encodeChar character := List.flatMap_singleton _ _
    rw [List.concat_eq_append, encode_append, character_bytes] at bytes
    rcases last_encode_char character with ⟨own, ascii⟩ | ⟨init, value, own⟩
    · rw [own] at bytes
      obtain ⟨same, ends⟩ := List.append_inj' bytes rfl
      refine ⟨front, ?_, same⟩
      rw [← List.head_eq_of_cons_eq ends, to_nat_of_lt (by omega), Char.ofNat_toNat,
        List.concat_eq_append]
    · rw [own, ← List.append_assoc] at bytes
      obtain ⟨_, ends⟩ := List.append_inj' bytes rfl
      rw [← List.head_eq_of_cons_eq ends, to_nat_continuation] at single
      omega

/-- Behind the bytes of a text the rest is decoded by itself. -/
theorem decode_from_encode_append (text : Text) (index : Nat) (rest : Bytes) :
    decodeFrom index (encode text ++ rest) =
      (decodeFrom (index + (encode text).length) rest).map fun others => text ++ others := by
  induction text generalizing index with
  | nil =>
      rw [encode, List.flatMap_nil, List.nil_append, List.length_nil, Nat.add_zero]
      cases decodeFrom index rest <;> rfl
  | cons character text ih =>
      obtain ⟨byte, tail, bytes, read⟩ := step_encode_char character (encode text ++ rest)
      have length := congrArg List.length bytes
      rw [length_encode_char] at length
      have all : encode (character :: text) = byte :: tail ++ encode text := by
        rw [← bytes, encode, List.flatMap_cons, encode]
      rw [all, List.append_assoc, List.cons_append, decode_from_character read, ih, List.length_append,
        ← length, Nat.add_assoc]
      cases decodeFrom (index + (character.utf8Size + (encode text).length)) rest <;> rfl

/-- A defect in front of a character of one byte is found whatever stands behind. -/
theorem decode_from_broken {index : Nat} {front : Bytes} {defect : Defect} {last : Byte}
    (broken : decodeFrom index front = .error defect) (ends : front.getLast? = some last)
    (single : last.toNat < 0x80) (more : Bytes) :
    decodeFrom index (front ++ more) = .error defect := by
  induction front using bytes_induction generalizing index with
  | nil => cases ends
  | character byte rest value after read ih =>
      rw [decode_from_character read] at broken
      rw [List.cons_append, decode_from_character ((step_append more).1 value read)]
      cases behind : decodeFrom (index + value.utf8Size) after with
      | ok others =>
          rw [behind] at broken
          cases broken
      | error other =>
          obtain rfl : other = defect := by
            rw [behind] at broken
            exact Except.error.inj broken
          cases after with
          | nil =>
              rw [decodeFrom] at behind
              cases behind
          | cons next after =>
              have endsBehind : (next :: after).getLast? = some last := by
                rw [← ends, ← encode_of_step read, List.getLast?_append, List.getLast?_cons,
                  Option.some_or]
              rw [ih behind endsBehind]
              rfl
  | invalid byte rest length after read =>
      rw [decode_from_invalid read] at broken
      rw [List.cons_append, decode_from_invalid ((step_append more).2 length read), broken]
  | incomplete byte rest read =>
      -- More bytes could mend it, but then the last one would be part of a longer character.
      have large := step_incomplete read last (List.mem_of_getLast? ends)
      omega

end Decoding
end RemoteBoot.Utf8
