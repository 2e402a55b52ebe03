/-!
# Bytes and words of a fixed width

A word is a natural number written in a fixed number of bytes.  Both byte orders occur: words in
node memory are little-endian, quadlets of the configuration ROM are big-endian.  Reading a written
word gives the number modulo its width, and writing what was read gives the bytes back.
-/

set_option autoImplicit false

namespace RemoteBoot

abbrev Byte := UInt8
abbrev Bytes := List Byte

namespace Word

/-- The `width` low bytes of a number, least significant first. -/
def littleEndian : Nat → Nat → Bytes
  | 0, _ => []
  | width + 1, value => UInt8.ofNat value :: littleEndian width (value / 256)

/-- The number that bytes stand for, least significant first. -/
def ofLittleEndian : Bytes → Nat
  | [] => 0
  | byte :: rest => byte.toNat + 256 * ofLittleEndian rest

/-- The `width` low bytes of a number, most significant first. -/
def bigEndian (width value : Nat) : Bytes :=
  (littleEndian width value).reverse

/-- The number that bytes stand for, most significant first. -/
def ofBigEndian (bytes : Bytes) : Nat :=
  ofLittleEndian bytes.reverse

/-- How many numbers fit in a number of bytes. -/
def range : Nat → Nat
  | 0 => 1
  | width + 1 => 256 * range width

theorem length_littleEndian (width value : Nat) : (littleEndian width value).length = width := by
  induction width generalizing value with
  | zero => rfl
  | succ width ih => simp [littleEndian, ih]

theorem length_bigEndian (width value : Nat) : (bigEndian width value).length = width := by
  simp [bigEndian, length_littleEndian]

theorem ofLittleEndian_littleEndian (width value : Nat) :
    ofLittleEndian (littleEndian width value) = value % range width := by
  induction width generalizing value with
  | zero => simp [littleEndian, ofLittleEndian, range, Nat.mod_one]
  | succ width ih =>
    rw [littleEndian, ofLittleEndian, ih, UInt8.toNat_ofNat', range, Nat.mod_mul]

theorem ofBigEndian_bigEndian (width value : Nat) :
    ofBigEndian (bigEndian width value) = value % range width := by
  rw [ofBigEndian, bigEndian, List.reverse_reverse, ofLittleEndian_littleEndian]

theorem ofLittleEndian_lt (bytes : Bytes) : ofLittleEndian bytes < range bytes.length := by
  induction bytes with
  | nil => exact Nat.one_pos
  | cons byte rest ih =>
    have bounded := byte.toNat_lt
    simp only [ofLittleEndian, List.length_cons, range]
    omega

theorem littleEndian_ofLittleEndian (bytes : Bytes) :
    littleEndian bytes.length (ofLittleEndian bytes) = bytes := by
  induction bytes with
  | nil => rfl
  | cons byte rest ih =>
    have bounded := byte.toNat_lt
    have tail : (byte.toNat + 256 * ofLittleEndian rest) / 256 = ofLittleEndian rest := by omega
    have head : UInt8.ofNat (byte.toNat + 256 * ofLittleEndian rest) = byte := by
      apply UInt8.toNat_inj.mp
      rw [UInt8.toNat_ofNat']
      omega
    simp only [List.length_cons, ofLittleEndian, littleEndian, tail, head, ih]

/-- A 32-bit word as it lies in node memory. -/
def bytes (word : UInt32) : Bytes :=
  littleEndian 4 word.toNat

/-- The 32-bit word that lies in memory at the head of some bytes. -/
def ofBytes (bytes : Bytes) : UInt32 :=
  UInt32.ofNat (ofLittleEndian (bytes.take 4))

/-- A 32-bit quadlet as it lies in the configuration ROM. -/
def quadletBytes (quadlet : UInt32) : Bytes :=
  bigEndian 4 quadlet.toNat

/-- The quadlet at the head of some bytes of configuration ROM. -/
def ofQuadletBytes (bytes : Bytes) : UInt32 :=
  UInt32.ofNat (ofBigEndian (bytes.take 4))

theorem length_bytes (word : UInt32) : (bytes word).length = 4 :=
  length_littleEndian 4 word.toNat

theorem length_quadletBytes (quadlet : UInt32) : (quadletBytes quadlet).length = 4 :=
  length_bigEndian 4 quadlet.toNat

theorem ofBytes_bytes_append (word : UInt32) (suffix : Bytes) :
    ofBytes (bytes word ++ suffix) = word := by
  have bounded : word.toNat < range 4 := word.toNat_lt
  rw [ofBytes, List.take_append_of_le_length (by simp [length_bytes]),
    List.take_of_length_le (by simp [length_bytes]), bytes, ofLittleEndian_littleEndian,
    Nat.mod_eq_of_lt bounded, UInt32.ofNat_toNat]

theorem ofQuadletBytes_quadletBytes (quadlet : UInt32) :
    ofQuadletBytes (quadletBytes quadlet) = quadlet := by
  have bounded : quadlet.toNat < range 4 := quadlet.toNat_lt
  rw [ofQuadletBytes, List.take_of_length_le (by simp [length_quadletBytes]), quadletBytes,
    ofBigEndian_bigEndian, Nat.mod_eq_of_lt bounded, UInt32.ofNat_toNat]

end Word
end RemoteBoot
