import RemoteBoot.Proofs.Remote.ShortReads

/-!
# The bytes of a control block

Word number `i` of a block lies at offset `4 * i` of its bytes and nowhere else, so a block is read
back from its bytes whatever follows them, and any 28 bytes are those of the block that is read from
them.  Declaring the module words valid sets one bit of one byte.
-/

set_option autoImplicit false

namespace RemoteBoot

namespace Word

/-- The bytes of a list of words hold each word at four times its index. -/
theorem drop_flat_map_bytes (words : List UInt32) (rest : Bytes) {index : Nat}
    (inside : index < words.length) :
    ∃ behind, (words.flatMap bytes ++ rest).drop (4 * index) = bytes words[index] ++ behind := by
  induction words generalizing index with
  | nil => exact absurd inside (Nat.not_lt_zero index)
  | cons word words ih =>
      cases index with
      | zero => exact ⟨words.flatMap bytes ++ rest, by simp⟩
      | succ index =>
          obtain ⟨behind, found⟩ := ih (Nat.lt_of_succ_lt_succ inside)
          refine ⟨behind, ?_⟩
          have start : 4 * (index + 1) = (bytes word).length + 4 * index := by
            rw [length_bytes]
            omega
          rw [List.flatMap_cons, List.append_assoc, start, List.drop_length_add_append, found]
          rfl

/-- Setting a bit in the low byte of a word changes nothing but its first byte. -/
theorem bytes_or (word flag : UInt32) (low : flag.toNat < 256) :
    bytes word = UInt8.ofNat word.toNat :: (bytes word).tail ∧
      bytes (word ||| flag) =
        (UInt8.ofNat word.toNat ||| UInt8.ofNat flag.toNat) :: (bytes word).tail := by
  have higher : (word ||| flag).toNat / 256 = word.toNat / 256 := by
    have shifted (number : Nat) : number / 256 = number >>> 8 :=
      (Nat.shiftRight_eq_div_pow number 8).symm
    rw [UInt32.toNat_or, shifted, shifted, Nat.shiftRight_or_distrib, ← shifted flag.toNat,
      Nat.div_eq_of_lt low, Nat.or_zero]
  have first : UInt8.ofNat (word ||| flag).toNat =
      UInt8.ofNat word.toNat ||| UInt8.ofNat flag.toNat := by
    rw [UInt32.toNat_or]
    exact UInt8.ofNat_or word.toNat flag.toNat
  refine ⟨rfl, ?_⟩
  rw [bytes, bytes, littleEndian, littleEndian, higher, first]
  rfl

end Word

namespace Multiboot.ControlBlock

theorem length_to_bytes (block : ControlBlock) : block.toBytes.length = size := by
  simp [toBytes, words, Word.length_bytes, size]

/-- Each word is read at its own offset. -/
theorem word_at (block : ControlBlock) (rest : Bytes) (index : Nat) {word : UInt32}
    (listed : block.words[index]? = some word) :
    Word.ofBytes ((block.toBytes ++ rest).drop (4 * index)) = word := by
  obtain ⟨inside, same⟩ := List.getElem?_eq_some_iff.mp listed
  obtain ⟨behind, found⟩ := Word.drop_flat_map_bytes block.words rest inside
  rw [toBytes, found, same, Word.ofBytes_bytes_append]

theorem of_bytes_to_bytes_append (block : ControlBlock) (rest : Bytes) :
    ofBytes? (block.toBytes ++ rest) = some block := by
  have whole : ¬ (block.toBytes ++ rest).length < size := by
    rw [List.length_append, length_to_bytes]
    omega
  have word := @word_at block rest
  have flags : Word.ofBytes (block.toBytes ++ rest) = block.flags := word 0 rfl
  have memLower : Word.ofBytes ((block.toBytes ++ rest).drop 4) = block.memLower := word 1 rfl
  have memUpper : Word.ofBytes ((block.toBytes ++ rest).drop 8) = block.memUpper := word 2 rfl
  have bootDevice : Word.ofBytes ((block.toBytes ++ rest).drop 12) = block.bootDevice :=
    word 3 rfl
  have commandLine : Word.ofBytes ((block.toBytes ++ rest).drop 16) = block.commandLine :=
    word 4 rfl
  have modsCount : Word.ofBytes ((block.toBytes ++ rest).drop modsCountOffset) =
      block.modsCount := word 5 rfl
  have modsAddress : Word.ofBytes ((block.toBytes ++ rest).drop modsAddressOffset) =
      block.modsAddress := word 6 rfl
  rw [ofBytes?, if_neg whole, flags, memLower, memUpper, bootDevice, commandLine, modsCount,
    modsAddress]

/-- What follows the first 28 bytes does not count. -/
theorem of_bytes_of_long {bytes : Bytes} (long : size ≤ bytes.length) :
    ∃ block, ofBytes? bytes = some block ∧ block.toBytes = bytes.take size := by
  have front : (bytes.take size).length = size := by
    rw [List.length_take, Nat.min_eq_left long]
  obtain ⟨block, _, same⟩ := of_bytes_eq_some front
  refine ⟨block, ?_, same⟩
  have decoded := of_bytes_to_bytes_append block (bytes.drop size)
  rwa [same, List.take_append_drop] at decoded

theorem of_bytes_of_short {bytes : Bytes} (short : bytes.length < size) : ofBytes? bytes = none :=
  if_pos short

theorem to_bytes_with_mods (block : ControlBlock) :
    ∃ first rest, block.toBytes = first :: rest ∧
      block.withMods.toBytes = (first ||| 8) :: rest := by
  obtain ⟨plain, marked⟩ := Word.bytes_or block.flags Flag.mods (by decide)
  have others : block.words.tail = block.withMods.words.tail := rfl
  refine ⟨UInt8.ofNat block.flags.toNat,
    (Word.bytes block.flags).tail ++ block.words.tail.flatMap Word.bytes, ?_, ?_⟩
  · rw [← List.cons_append, ← plain]
    rfl
  · have eight : UInt8.ofNat Flag.mods.toNat = 8 := by decide
    rw [← eight, ← List.cons_append, ← marked, others]
    rfl

/-- A bit of some bytes, by the offset of its byte. -/
def bitAt (bytes : Bytes) (offset bit : Nat) : Bool :=
  (bytes.getD offset 0).toNat.testBit bit

theorem bit_at_with_mods (block : ControlBlock) :
    bitAt block.withMods.toBytes 0 3 = true ∧
      ∀ offset bit, ¬ (offset = 0 ∧ bit = 3) →
        bitAt block.withMods.toBytes offset bit = bitAt block.toBytes offset bit := by
  obtain ⟨first, rest, plain, marked⟩ := block.to_bytes_with_mods
  rw [plain, marked]
  have head (bit : Nat) : bitAt ((first ||| 8) :: rest) 0 bit =
      (first.toNat.testBit bit || Nat.testBit 8 bit) := by
    change (first ||| 8).toNat.testBit bit = _
    rw [UInt8.toNat_or, Nat.testBit_or]
    rfl
  constructor
  · have eight : Nat.testBit 8 3 = true := rfl
    rw [head 3, eight, Bool.or_true]
  · intro offset bit other
    cases offset with
    | succ offset => rfl
    | zero =>
        have different : 3 ≠ bit := fun same => other ⟨rfl, same.symm⟩
        have clear : Nat.testBit 8 bit = false := Nat.testBit_two_pow_of_ne different
        rw [head bit, clear, Bool.or_false]
        rfl

/-- A block and its 28 bytes determine each other, whatever stands behind the bytes and whatever
bits the flags have; fewer bytes are no block.  Declaring the module words valid touches one bit of
the bytes at most. -/
theorem control_block_bytes_are_exact :
    (∀ (block : ControlBlock) (rest : Bytes), ofBytes? (block.toBytes ++ rest) = some block) ∧
      (∀ bytes : Bytes, size ≤ bytes.length →
        ∃ block, ofBytes? bytes = some block ∧ block.toBytes = bytes.take size) ∧
      (∀ bytes : Bytes, bytes.length < size → ofBytes? bytes = none) ∧
      ∀ block : ControlBlock,
        block.withMods.toBytes.length = block.toBytes.length ∧
          bitAt block.withMods.toBytes 0 3 = true ∧
          ∀ offset bit, ¬ (offset = 0 ∧ bit = 3) →
            bitAt block.withMods.toBytes offset bit = bitAt block.toBytes offset bit := by
  refine ⟨of_bytes_to_bytes_append, fun _ => of_bytes_of_long, fun _ => of_bytes_of_short, ?_⟩
  intro block
  refine ⟨?_, block.bit_at_with_mods⟩
  rw [length_to_bytes, length_to_bytes]

/-- A block whose flags have bits without a meaning. -/
def strangeBlock : ControlBlock :=
  ⟨0x80000001, 0x280, 0x7fc00, 0, 0x9000, 2, 0x104000⟩

/-- The bytes of the strange block and one byte more. -/
def strangeBytes : Bytes := [
  0x01, 0x00, 0x00, 0x80, 0x80, 0x02, 0x00, 0x00, 0x00, 0xfc, 0x07, 0x00, 0x00, 0x00, 0x00, 0x00,
  0x00, 0x90, 0x00, 0x00, 0x02, 0x00, 0x00, 0x00, 0x00, 0x40, 0x10, 0x00, 0xff]

theorem strange_flags_survive :
    ofBytes? strangeBytes = some strangeBlock ∧
      strangeBlock.toBytes = strangeBytes.take size ∧
      ofBytes? (strangeBytes.take 27) = none ∧
      bitAt strangeBlock.withMods.toBytes 0 3 = true ∧
      bitAt strangeBlock.withMods.toBytes 3 7 = bitAt strangeBytes 3 7 := by
  obtain ⟨back, forth, short, marked⟩ := control_block_bytes_are_exact
  have same : strangeBlock.toBytes ++ [0xff] = strangeBytes := by decide
  have decoded := back strangeBlock [0xff]
  rw [same] at decoded
  obtain ⟨block, found, bytes⟩ := forth strangeBytes (by decide)
  obtain rfl : strangeBlock = block := Option.some.inj (decoded.symm.trans found)
  obtain ⟨_, set, others⟩ := marked strangeBlock
  refine ⟨decoded, bytes, short _ (by decide), set, ?_⟩
  rw [others 3 7 (by decide)]
  decide

end Multiboot.ControlBlock
end RemoteBoot
