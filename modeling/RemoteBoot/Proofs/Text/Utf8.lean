import RemoteBoot.Text.Utf8

/-!
# Text as bytes and back

Decoding the bytes of a text gives the text.  The bytes of a character have no zero byte, unless it
is the zero character, so a zero byte can end a text.
-/

set_option autoImplicit false

namespace RemoteBoot.Utf8

theorem to_nat_of_lt {value : Nat} (small : value < 256) : (UInt8.ofNat value).toNat = value := by
  rw [UInt8.toNat_ofNat', Nat.mod_eq_of_lt small]

theorem to_nat_continuation (value : Nat) : (continuation value).toNat = 128 + value % 64 :=
  to_nat_of_lt (by omega)

/-- A character is no surrogate. -/
theorem code_valid (character : Char) :
    character.toNat < 0xd800 ∨ 0xdfff < character.toNat ∧ character.toNat < 0x110000 :=
  character.valid

theorem follow_continuation {bits low high taken following value : Nat} {rest : Bytes}
    (above : low ≤ 128 + value % 64) (below : 128 + value % 64 ≤ high) :
    follow bits low high taken (following + 1) (continuation value :: rest) =
      follow (bits * 64 + value % 64) 0x80 0xbf (taken + 1) following rest := by
  rw [follow, to_nat_continuation, if_pos ⟨above, below⟩, Nat.add_sub_cancel_left]

theorem step_of_ascii {code : Nat} (ascii : code < 0x80) (rest : Bytes) :
    step (UInt8.ofNat code) rest = .character (Char.ofNat code) rest := by
  rw [step, to_nat_of_lt (by omega), if_pos ascii]

/-- At a byte with a lead the sequence is followed. -/
theorem step_of_lead {value following low high bits : Nat} (large : 0x80 ≤ value)
    (small : value < 256)
    (found : lead? (UInt8.ofNat value) = some ⟨following, low, high, bits⟩) (rest : Bytes) :
    step (UInt8.ofNat value) rest = follow bits low high 1 following rest := by
  rw [step, to_nat_of_lt small, if_neg (Nat.not_lt.mpr large), found]

theorem lead_of_two (bits : Nat) (above : 2 ≤ bits) (below : bits < 32) :
    lead? (UInt8.ofNat (192 + bits)) = some ⟨1, 0x80, 0xbf, bits⟩ := by
  rw [lead?, to_nat_of_lt (by omega)]
  rw [if_neg (by omega), if_pos (by omega), Nat.add_sub_cancel_left]

/-- The lead of three bytes keeps out short sequences and surrogates. -/
theorem lead_of_three (bits : Nat) (below : bits < 16) :
    lead? (UInt8.ofNat (224 + bits)) =
      some ⟨2, if bits = 0 then 0xa0 else 0x80, if bits = 13 then 0x9f else 0xbf, bits⟩ := by
  rw [lead?, to_nat_of_lt (by omega)]
  rw [if_neg (by omega), if_neg (by omega)]
  by_cases first : bits = 0
  · rw [first]
    rfl
  · by_cases surrogate : bits = 13
    · rw [surrogate]
      rfl
    · rw [if_neg (by omega), if_neg (by omega), if_pos (by omega), if_neg first, if_neg surrogate,
        Nat.add_sub_cancel_left]

/-- The lead of four bytes keeps out short sequences and codes that are too large. -/
theorem lead_of_four (bits : Nat) (below : bits < 5) :
    lead? (UInt8.ofNat (240 + bits)) =
      some ⟨3, if bits = 0 then 0x90 else 0x80, if bits = 4 then 0x8f else 0xbf, bits⟩ := by
  have cases : bits = 0 ∨ bits = 1 ∨ bits = 2 ∨ bits = 3 ∨ bits = 4 := by omega
  rcases cases with rfl | rfl | rfl | rfl | rfl <;> rfl

/-- Decoding takes the bytes of a character as this character. -/
theorem step_encode_char (character : Char) (rest : Bytes) :
    ∃ byte tail, encodeChar character = byte :: tail ∧
      step byte (tail ++ rest) = .character character rest := by
  have valid := code_valid character
  have same : Char.ofNat character.toNat = character := Char.ofNat_toNat character
  rcases Nat.lt_or_ge character.toNat 0x80 with ascii | large
  · refine ⟨_, [], by rw [encodeChar, if_pos ascii], ?_⟩
    rw [List.nil_append, step_of_ascii ascii, same]
  rcases Nat.lt_or_ge character.toNat 0x800 with two | large
  · refine ⟨_, _, by rw [encodeChar, if_neg (by omega), if_pos two], ?_⟩
    have lead := lead_of_two (character.toNat / 64) (by omega) (by omega)
    rw [step_of_lead (by omega) (by omega) lead, List.singleton_append,
      follow_continuation (by omega) (by omega), follow, Nat.div_add_mod', same]
  rcases Nat.lt_or_ge character.toNat 0x10000 with three | large
  · refine ⟨_, _, by rw [encodeChar, if_neg (by omega), if_neg (by omega), if_pos three], ?_⟩
    have lead := lead_of_three (character.toNat / 4096) (by omega)
    have code : (character.toNat / 4096 * 64 + character.toNat / 64 % 64) * 64 +
        character.toNat % 64 = character.toNat := by omega
    rw [step_of_lead (by omega) (by omega) lead, List.cons_append, List.singleton_append,
      follow_continuation (by split <;> omega) (by split <;> omega),
      follow_continuation (by omega) (by omega), follow, code, same]
  · refine ⟨_, _, by rw [encodeChar, if_neg (by omega), if_neg (by omega), if_neg (by omega)], ?_⟩
    have lead := lead_of_four (character.toNat / 262144) (by omega)
    have code : ((character.toNat / 262144 * 64 + character.toNat / 4096 % 64) * 64 +
        character.toNat / 64 % 64) * 64 + character.toNat % 64 = character.toNat := by omega
    rw [step_of_lead (by omega) (by omega) lead, List.cons_append, List.cons_append,
      List.singleton_append, follow_continuation (by split <;> omega) (by split <;> omega),
      follow_continuation (by omega) (by omega), follow_continuation (by omega) (by omega), follow,
      code, same]

theorem decode_from_encode (text : Text) (index : Nat) : decodeFrom index (encode text) = .ok text := by
  induction text generalizing index with
  | nil => rw [encode, List.flatMap_nil, decodeFrom]
  | cons character text ih =>
      obtain ⟨byte, tail, bytes, taken⟩ := step_encode_char character (encode text)
      rw [encode, List.flatMap_cons, bytes, List.cons_append, decodeFrom]
      change step byte (tail ++ List.flatMap encodeChar text) = _ at taken
      split
      · next value rest found =>
          rw [taken] at found
          cases found
          simp only [ih]
      · next found =>
          rw [taken] at found
          cases found
      · next found =>
          rw [taken] at found
          cases found

theorem decode_encode (text : Text) : decode (encode text) = .ok text :=
  decode_from_encode text 0

/-- No byte of a character other than the zero character is zero. -/
theorem zero_not_mem_encode_char {character : Char} (other : character ≠ '\x00') :
    (0 : Byte) ∉ encodeChar character := by
  have positive : 0 < character.toNat := by
    apply Nat.pos_of_ne_zero
    intro zero
    exact other (Char.toNat_inj.mp zero)
  have small : ∀ value : Nat, value % 256 ≠ 0 → (0 : Byte) ≠ UInt8.ofNat value := by
    intro value nonzero same
    have numbers := congrArg UInt8.toNat same
    rw [UInt8.toNat_ofNat'] at numbers
    exact nonzero numbers.symm
  have valid := code_valid character
  simp only [encodeChar, continuation]
  split
  · simp only [List.mem_singleton]
    exact small _ (by omega)
  · split
    · simp only [List.mem_cons, List.not_mem_nil, or_false, not_or]
      exact ⟨small _ (by omega), small _ (by omega)⟩
    · split <;> simp only [List.mem_cons, List.not_mem_nil, or_false, not_or]
      · exact ⟨small _ (by omega), small _ (by omega), small _ (by omega)⟩
      · exact ⟨small _ (by omega), small _ (by omega), small _ (by omega), small _ (by omega)⟩

theorem zero_not_mem_encode {text : Text} (clean : '\x00' ∉ text) : (0 : Byte) ∉ encode text := by
  rw [encode, List.mem_flatMap]
  rintro ⟨character, member, zero⟩
  refine zero_not_mem_encode_char ?_ zero
  rintro rfl
  exact clean member

end RemoteBoot.Utf8
