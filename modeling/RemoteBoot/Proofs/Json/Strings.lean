import RemoteBoot.Json.Reader
import RemoteBoot.Proofs.Json.Grammar
import RemoteBoot.Proofs.Text.Decoding

/-!
# Reading strings

The reader keeps a string in parts and puts surrogate pairs together afterwards.  The units of its
parts are the units of the body that it read, and it finds a text exactly if these are the units of
one.
-/

set_option autoImplicit false

namespace RemoteBoot.Json

section Units

theorem units_small {character : Char} (small : character.toNat < 0x10000) :
    units character = [character.toNat] :=
  if_pos small

theorem units_large {character : Char} (large : ¬character.toNat < 0x10000) :
    units character = [0xd800 + (character.toNat - 0x10000) / 0x400,
      0xdc00 + (character.toNat - 0x10000) % 0x400] :=
  if_neg large

/-- The first unit of a character says whether there is a second one. -/
theorem units_append_inj {first second : Char} {codes others : List Nat}
    (same : units first ++ codes = units second ++ others) : first = second ∧ codes = others := by
  have valid := Utf8.code_valid first
  have valid' := Utf8.code_valid second
  have named : first.toNat = second.toNat → first = second := fun same => Char.toNat_inj.mp same
  by_cases small : first.toNat < 0x10000 <;> by_cases small' : second.toNat < 0x10000 <;>
    simp only [units_small, units_large, small, small', not_false_eq_true, List.cons_append,
      List.nil_append, List.cons.injEq] at same
  · exact ⟨named same.1, same.2⟩
  · omega
  · omega
  · exact ⟨named (by omega), same.2.2⟩

theorem units_code {code : Nat} (small : code < 0x10000) (high : isHigh code = false)
    (low : isLow code = false) : units (Char.ofNat code) = [code] := by
  simp only [isHigh, isLow, Bool.and_eq_false_iff, decide_eq_false_iff_not] at high low
  have named : (Char.ofNat code).toNat = code := Utf8.to_nat_of_code (by omega)
  rw [units_small (by rw [named]; exact small), named]

theorem units_pair {high low : Nat} (first : isHigh high = true) (second : isLow low = true) :
    units (pairValue high low) = [high, low] := by
  simp only [isHigh, isLow, Bool.and_eq_true, decide_eq_true_eq] at first second
  have named : (pairValue high low).toNat = 0x10000 + (high - 0xd800) * 0x400 + (low - 0xdc00) :=
    Utf8.to_nat_of_code (by omega)
  rw [units_large (by omega), named, List.cons.injEq, List.cons.injEq]
  exact ⟨by omega, by omega, rfl⟩

/-- No character starts with a low surrogate. -/
theorem head_units (character : Char) :
    ∃ first behind, units character = first :: behind ∧ isLow first = false := by
  have valid := Utf8.code_valid character
  by_cases small : character.toNat < 0x10000
  · refine ⟨_, _, units_small small, ?_⟩
    simp only [isLow, Bool.and_eq_false_iff, decide_eq_false_iff_not]
    omega
  · refine ⟨_, _, units_large small, ?_⟩
    simp only [isLow, Bool.and_eq_false_iff, decide_eq_false_iff_not]
    omega

theorem units_append_eq_iff {character : Char} {codes : List Nat} {text : Text} :
    units character ++ codes = text.flatMap units ↔
      ∃ behind : Text, behind.flatMap units = codes ∧ character :: behind = text := by
  constructor
  · intro same
    cases text with
    | nil =>
        obtain ⟨first, behind, shape, _⟩ := head_units character
        rw [shape] at same
        cases same
    | cons other behind =>
        obtain ⟨rfl, rfl⟩ := units_append_inj same
        exact ⟨behind, rfl, rfl⟩
  · rintro ⟨behind, rfl, rfl⟩
    rfl

theorem low_cons_ne_append {code : Nat} (low : isLow code = true) (character : Char)
    (codes others : List Nat) : code :: codes ≠ units character ++ others := by
  intro same
  obtain ⟨first, behind, shape, other⟩ := head_units character
  rw [shape] at same
  cases same
  rw [low] at other
  cases other

/-- A low surrogate starts no text. -/
theorem low_cons_ne_units {code : Nat} (low : isLow code = true) (codes : List Nat) (text : Text) :
    code :: codes ≠ text.flatMap units := by
  cases text with
  | nil => exact nofun
  | cons character behind => exact low_cons_ne_append low character codes _

/-- Behind a high surrogate a text goes on with a low one. -/
theorem low_of_high_cons {code : Nat} {codes : List Nat} {text : Text} (high : isHigh code = true)
    (same : code :: codes = text.flatMap units) : ∃ low others, codes = low :: others ∧
      isLow low = true := by
  cases text with
  | nil => cases same
  | cons character behind =>
      simp only [isHigh, Bool.and_eq_true, decide_eq_true_eq] at high
      have valid := Utf8.code_valid character
      by_cases small : character.toNat < 0x10000
      · rw [List.flatMap_cons, units_small small] at same
        cases same
        omega
      · rw [List.flatMap_cons, units_large small] at same
        cases same
        refine ⟨_, _, rfl, ?_⟩
        simp only [isLow, Bool.and_eq_true, decide_eq_true_eq]
        omega

end Units

section Parts

def Piece.units : Piece → List Nat
  | .character value => Json.units value
  | .unit code => [code]

/-- What an escape by number gives has sixteen bits. -/
def Piece.IsSmall : Piece → Prop
  | .character _ => True
  | .unit code => code < 0x10000

/-- A character in front of the parts of a text. -/
theorem map_cons_iff {character : Char} {found : Option Text} {codes : List Nat}
    (read : ∀ text : Text, found = some text ↔ codes = text.flatMap units) (text : Text) :
    found.map (character :: ·) = some text ↔ units character ++ codes = text.flatMap units := by
  rw [Option.map_eq_some_iff, units_append_eq_iff]
  simp only [read, eq_comm]

theorem text_of_iff {pieces : List Piece} (small : ∀ piece ∈ pieces, piece.IsSmall) (text : Text) :
    textOf? pieces = some text ↔ pieces.flatMap Piece.units = text.flatMap units := by
  -- The cases of a unit: a whole pair, a high surrogate before another unit or before none, a low
  -- one by itself, and a unit that is a character.
  fun_induction textOf? pieces generalizing text with
  | case1 =>
      cases text with
      | nil => exact ⟨fun _ => rfl, fun _ => rfl⟩
      | cons character behind =>
          obtain ⟨first, others, shape, _⟩ := head_units character
          rw [List.flatMap_cons, shape]
          exact ⟨nofun, nofun⟩
  | case2 value pieces ih =>
      exact map_cons_iff (ih fun piece listed => small piece (List.mem_cons_of_mem _ listed)) text
  | case3 code high low others second ih =>
      have read := @map_cons_iff (pairValue code low) _ _
        (ih fun piece listed => small piece (by simp [listed])) text
      rw [units_pair high second] at read
      exact read
  | case4 code high low others other =>
      refine ⟨nofun, fun same => absurd ?_ other⟩
      obtain ⟨_, _, shape, second⟩ := low_of_high_cons high same
      cases shape
      exact second
  | case5 code pieces high alone =>
      refine ⟨nofun, fun same => ?_⟩
      obtain ⟨low, behind, shape, second⟩ := low_of_high_cons high same
      cases pieces with
      | nil => cases shape
      | cons piece others =>
          cases piece with
          | unit next => cases alone next others rfl
          | character value =>
              exact absurd shape.symm (low_cons_ne_append second value behind _)
  | case6 code pieces _ low => exact ⟨nofun, fun same => absurd same (low_cons_ne_units low _ text)⟩
  | case7 code pieces high low ih =>
      have plain : units (Char.ofNat code) = [code] :=
        units_code (small (.unit code) List.mem_cons_self) (Bool.eq_false_of_not_eq_true high)
          (Bool.eq_false_of_not_eq_true low)
      have read := @map_cons_iff (Char.ofNat code) _ _
        (ih fun piece listed => small piece (List.mem_cons_of_mem _ listed)) text
      rw [plain] at read
      exact read

theorem text_of_eq_iff {pieces : List Piece} (small : ∀ piece ∈ pieces, piece.IsSmall)
    (content : Option Text) :
    textOf? pieces = content ↔ Means (pieces.flatMap Piece.units) content := by
  cases content with
  | some text => exact text_of_iff small text
  | none =>
      rw [Option.eq_none_iff_forall_ne_some]
      exact forall_congr' fun text => not_congr (text_of_iff small text)

theorem unescape_of_listed {mark : Char} {code : Nat} (listed : (mark, code) ∈ escapes) :
    ∃ value, unescape? mark = some value ∧ units value = [code] := by
  simp only [escapes, List.mem_cons, Prod.mk.injEq, List.not_mem_nil, or_false] at listed
  rcases listed with ⟨rfl, rfl⟩ | ⟨rfl, rfl⟩ | ⟨rfl, rfl⟩ | ⟨rfl, rfl⟩ | ⟨rfl, rfl⟩ | ⟨rfl, rfl⟩ |
    ⟨rfl, rfl⟩ | ⟨rfl, rfl⟩ <;> exact ⟨_, rfl, rfl⟩

theorem listed_of_unescape {mark value : Char} (found : unescape? mark = some value) :
    ∃ code, units value = [code] ∧ (mark, code) ∈ escapes := by
  unfold unescape? at found
  split at found <;> cases found <;> exact ⟨_, rfl, by decide⟩

theorem code_small {digits : Text} {code : Nat} (four : digits.length = 4)
    (spells : Numeral.Spells 16 digits code) : code < 0x10000 := by
  obtain ⟨_, values, stands, rfl⟩ := spells
  have counted : values.length = 4 := by rw [← stands.length_eq, four]
  have below : ∀ value ∈ values.reverse, value < 16 := by
    intro value listed
    obtain ⟨place, inside, rfl⟩ := List.getElem_of_mem (List.mem_reverse.mp listed)
    exact (stands.get (by rw [stands.length_eq]; exact inside) inside).1
  have bound := Nat.ofDigits_lt_base_pow_length (by decide) below
  rw [List.length_reverse, counted] at bound
  exact bound

/-- A part in front of what the reader finds. -/
def Piece.before (piece : Piece) (found : List Piece × Text) : List Piece × Text :=
  (piece :: found.1, found.2)

theorem pieces_plain {character : Char} (printable : 0x20 ≤ character.toNat)
    (unquoted : character ≠ '"') (unescaped : character ≠ '\\') (text : Text) :
    pieces? (character :: text) = (pieces? text).map (Piece.before (.character character)) := by
  have kept : ¬(character.toNat < 0x20 ∨ character = '\\') := fun refused =>
    refused.elim (Nat.not_lt.mpr printable) unescaped
  rw [pieces?, if_neg kept, Option.map_eq_bind]
  · rfl
  · exact unquoted
  · exact fun _ _ _ _ _ escape => absurd escape unescaped
  · exact fun _ _ escape => absurd escape unescaped

theorem pieces_short {mark value : Char} (found : unescape? mark = some value) (text : Text) :
    pieces? ('\\' :: mark :: text) = (pieces? text).map (Piece.before (.character value)) := by
  rw [pieces?, found, Option.map_eq_bind]
  · rfl
  · rintro _ _ _ _ _ rfl
    cases found

theorem pieces_long {digits : Text} {code : Nat} (four : digits.length = 4)
    (spells : Numeral.Spells 16 digits code) (text : Text) :
    pieces? ('\\' :: 'u' :: digits ++ text) = (pieces? text).map (Piece.before (.unit code)) := by
  have valued := (Numeral.of_digits_iff (Nat.le_refl 16) digits code).mpr spells
  match digits, four with
  | [first, second, third, fourth], _ =>
      change (Numeral.ofDigits? 16 [first, second, third, fourth]).bind _ = _
      rw [valued, Option.map_eq_bind]
      rfl

theorem pieces_of_body {text : Text} {codes : List Nat} (within : Body text codes) (rest : Text) :
    ∃ pieces, pieces? (text ++ '"' :: rest) = some (pieces, rest) ∧
      (∀ piece ∈ pieces, piece.IsSmall) ∧ pieces.flatMap Piece.units = codes := by
  induction within with
  | empty => exact ⟨[], rfl, nofun, rfl⟩
  | @plain character text _ printable unquoted unescaped _ ih =>
      obtain ⟨pieces, read, small, rfl⟩ := ih
      refine ⟨.character character :: pieces, ?_, List.forall_mem_cons.mpr ⟨trivial, small⟩, rfl⟩
      rw [List.cons_append, pieces_plain printable unquoted unescaped, read]
      rfl
  | @short mark code text codes listed _ ih =>
      obtain ⟨pieces, read, small, rfl⟩ := ih
      obtain ⟨value, found, coded⟩ := unescape_of_listed listed
      refine ⟨.character value :: pieces, ?_, List.forall_mem_cons.mpr ⟨trivial, small⟩, ?_⟩
      · rw [List.cons_append, List.cons_append, pieces_short found, read]
        rfl
      · rw [List.flatMap_cons, Piece.units, coded]
        rfl
  | @long digits text code codes four spells _ ih =>
      obtain ⟨pieces, read, small, rfl⟩ := ih
      refine ⟨.unit code :: pieces, ?_,
        List.forall_mem_cons.mpr ⟨code_small four spells, small⟩, rfl⟩
      rw [List.append_assoc, pieces_long four spells, read]
      rfl

theorem body_of_pieces {text rest : Text} {pieces : List Piece}
    (read : pieces? text = some (pieces, rest)) :
    ∃ body, text = body ++ '"' :: rest ∧ Body body (pieces.flatMap Piece.units) ∧
      ∀ piece ∈ pieces, piece.IsSmall := by
  fun_induction pieces? text generalizing pieces rest with
  | case1 => cases read; exact ⟨[], rfl, .empty, nofun⟩
  | case2 a b c d text ih =>
      obtain ⟨code, valued, read⟩ := Option.bind_eq_some_iff.mp read
      obtain ⟨⟨pieces, rest⟩, behind, read⟩ := Option.bind_eq_some_iff.mp read
      cases read
      obtain ⟨body, rfl, within, small⟩ := ih behind
      have spells := (Numeral.of_digits_iff (Nat.le_refl 16) [a, b, c, d] code).mp valued
      exact ⟨_, rfl, .long rfl spells within,
        List.forall_mem_cons.mpr ⟨code_small rfl spells, small⟩⟩
  | case3 mark text _ ih =>
      obtain ⟨value, found, read⟩ := Option.bind_eq_some_iff.mp read
      obtain ⟨⟨pieces, rest⟩, behind, read⟩ := Option.bind_eq_some_iff.mp read
      cases read
      obtain ⟨body, rfl, within, small⟩ := ih behind
      obtain ⟨code, coded, listed⟩ := listed_of_unescape found
      refine ⟨'\\' :: mark :: body, rfl, ?_, List.forall_mem_cons.mpr ⟨trivial, small⟩⟩
      rw [List.flatMap_cons, Piece.units, coded]
      exact .short listed within
  | case4 => cases read
  | case5 value text unquoted _ _ kept ih =>
      obtain ⟨⟨pieces, rest⟩, behind, read⟩ := Option.bind_eq_some_iff.mp read
      cases read
      obtain ⟨body, rfl, within, small⟩ := ih behind
      have printable : 0x20 ≤ value.toNat := Nat.le_of_not_lt fun control => kept (Or.inl control)
      exact ⟨_, rfl, .plain printable unquoted (fun escape => kept (Or.inr escape)) within,
        List.forall_mem_cons.mpr ⟨trivial, small⟩⟩
  | case6 => cases read

end Parts

/-- Behind an opening quote the reader takes what the grammar lets stand up to the closing one. -/
theorem string_iff (text rest : Text) (content : Option Text) :
    string? text = some (content, rest) ↔
      ∃ body codes, text = body ++ '"' :: rest ∧ Body body codes ∧ Means codes content := by
  constructor
  · intro read
    obtain ⟨⟨pieces, rest⟩, found, read⟩ := Option.bind_eq_some_iff.mp read
    cases read
    obtain ⟨body, rfl, within, small⟩ := body_of_pieces found
    exact ⟨body, _, rfl, within, (text_of_eq_iff small _).mp rfl⟩
  · rintro ⟨body, codes, rfl, within, means⟩
    obtain ⟨pieces, found, small, rfl⟩ := pieces_of_body within rest
    rw [string?, found, ← (text_of_eq_iff small content).mpr means]
    rfl

end RemoteBoot.Json
