import Mathlib.Data.List.Forall2
import Mathlib.Data.Nat.Digits.Lemmas
import Mathlib.Tactic.IntervalCases
import Mathlib.Tactic.Ring
import RemoteBoot.Text.Numeral

/-!
# What the number readers accept

A digit is one of sixteen characters in one of two cases, and digits spell their positional value.
Both readers take one or more digits behind at most one plus sign, if the value has 64 bits; they
differ only in the base of a text that does not start with the mark.  A number that is written in
either form is read back.
-/

set_option autoImplicit false

namespace RemoteBoot.Numeral

/-- A character stands for a digit of a base, in lower or in upper case. -/
def Stands (base : Nat) (character : Char) (value : Nat) : Prop :=
  value < base ∧ ("0123456789abcdef".toList[value]? = some character ∨
    "0123456789ABCDEF".toList[value]? = some character)

/-- One or more digits, most significant first, with their positional value. -/
def Spells (base : Nat) (digits : Text) (number : Nat) : Prop :=
  digits ≠ [] ∧ ∃ values, List.Forall₂ (Stands base) digits values ∧
    number = Nat.ofDigits base values.reverse

/-- At most one plus sign. -/
def signs : List Text := [[], ['+']]

def marks : List Text := [['0', 'x'], ['0', 'X']]

/-- Digits behind an optional sign, with a value of 64 bits. -/
def Writes (base : Nat) (text : Text) (number : Nat) : Prop :=
  ∃ sign ∈ signs, ∃ digits, text = sign ++ digits ∧ Spells base digits number ∧
    number < 0x10000000000000000

section Digits

variable {base : Nat}

theorem digit_value_of_stands {character : Char} {value : Nat} (small : base ≤ 16)
    (stands : Stands base character value) : digitValue? character = some value := by
  obtain ⟨below, spelled⟩ := stands
  have range : value < 16 := by omega
  interval_cases value <;> rcases spelled with same | same <;> cases same <;> rfl

theorem stands_of_digit_value {character : Char} {value : Nat} (small : base ≤ 16)
    (valued : digitValue? character = some value) (below : value < base) :
    Stands base character value := by
  have range : value < 16 := by omega
  have named : ∀ code, character.toNat = code → character = Char.ofNat code := by
    intro code same
    rw [← same, Char.ofNat_toNat]
  simp only [digitValue?] at valued
  split at valued
  · have code := named (48 + value) (by grind)
    have decimal : value < 10 := by grind
    subst code
    refine ⟨below, Or.inl ?_⟩
    interval_cases value <;> rfl
  · split at valued
    · have code := named (87 + value) (by grind)
      have letter : 10 ≤ value := by grind
      subst code
      refine ⟨below, Or.inl ?_⟩
      interval_cases value <;> rfl
    · split at valued
      · have code := named (55 + value) (by grind)
        have letter : 10 ≤ value := by grind
        subst code
        refine ⟨below, Or.inr ?_⟩
        interval_cases value <;> rfl
      · cases valued

theorem extend_iff (small : base ≤ 16) (read : Nat) (character : Char) (number : Nat) :
    extend? base read character = some number ↔
      ∃ value, Stands base character value ∧ read * base + value = number := by
  constructor
  · intro extended
    cases valued : digitValue? character with
    | none =>
        rw [extend?, valued] at extended
        cases extended
    | some value =>
        simp only [extend?, valued] at extended
        split at extended
        · next below =>
            exact ⟨value, stands_of_digit_value small valued below, Option.some.inj extended⟩
        · cases extended
  · intro known
    obtain ⟨value, stands, rfl⟩ := known
    simp only [extend?, digit_value_of_stands small stands, stands.1, if_true]

/-- Digits behind a number that was read already. -/
theorem fold_extend_iff (small : base ≤ 16) (digits : Text) (read number : Nat) :
    digits.foldlM (extend? base) read = some number ↔
      ∃ values, List.Forall₂ (Stands base) digits values ∧
        number = read * base ^ digits.length + Nat.ofDigits base values.reverse := by
  induction digits generalizing read with
  | nil => simp [eq_comm]
  | cons character digits ih =>
      rw [List.foldlM_cons, Option.bind_eq_bind, Option.bind_eq_some_iff]
      simp only [ih, extend_iff small]
      have shifted : ∀ (value : Nat) (values : List Nat), values.length = digits.length →
          (read * base + value) * base ^ digits.length + Nat.ofDigits base values.reverse =
            read * base ^ (digits.length + 1) +
              Nat.ofDigits base ((value :: values).reverse) := by
        intro value values counted
        rw [List.reverse_cons, Nat.ofDigits_append, Nat.ofDigits_singleton, List.length_reverse,
          counted]
        ring
      constructor
      · intro known
        obtain ⟨_, ⟨value, stands, rfl⟩, values, rest, rfl⟩ := known
        exact ⟨value :: values, .cons stands rest, shifted value values rest.length_eq.symm⟩
      · intro known
        obtain ⟨_, stands | ⟨stands, rest⟩, rfl⟩ := known
        next value values =>
          exact ⟨_, ⟨value, stands, rfl⟩, values, rest,
            (shifted value values rest.length_eq.symm).symm⟩

theorem of_digits_iff (small : base ≤ 16) (digits : Text) (number : Nat) :
    ofDigits? base digits = some number ↔ Spells base digits number := by
  cases digits with
  | nil => simp [ofDigits?, Spells]
  | cons character digits =>
      have folded := fold_extend_iff small (character :: digits) 0 number
      rw [Nat.zero_mul] at folded
      simpa [ofDigits?, Spells] using folded

/-- A sign is no digit. -/
theorem Spells.head {digits : Text} {number : Nat} (small : base ≤ 16)
    (spells : Spells base digits number) : digits.head? ≠ some '+' := by
  obtain ⟨some, values, stands, _⟩ := spells
  cases stands with
  | nil => exact absurd rfl some
  | @cons character value digits values first _ =>
      intro sign
      cases sign
      cases digit_value_of_stands small first

theorem drop_plus_of_digits {digits : Text} (unsigned : digits.head? ≠ some '+') :
    dropPlus digits = digits := by
  rw [dropPlus]
  intro rest sign
  exact unsigned (by rw [sign, List.head?_cons])

theorem unsigned_iff (small : base ≤ 16) (text : Text) (number : Nat) :
    unsigned? base text = some number ↔ Writes base text number := by
  have read : unsigned? base text = some number ↔
      Spells base (dropPlus text) number ∧ number < 0x10000000000000000 := by
    rw [← of_digits_iff small, unsigned?]
    cases ofDigits? base (dropPlus text) with
    | none => simp
    | some value =>
        simp only [Option.ite_none_right_eq_some, Option.some.injEq]
        grind
  rw [read]
  constructor
  · intro known
    obtain ⟨spells, below⟩ := known
    unfold dropPlus at spells
    split at spells
    · next rest => exact ⟨['+'], by decide, rest, rfl, spells, below⟩
    · exact ⟨[], by decide, text, rfl, spells, below⟩
  · intro known
    obtain ⟨sign, listed, digits, rfl, spells, below⟩ := known
    simp only [signs, List.mem_cons, List.not_mem_nil, or_false] at listed
    rcases listed with rfl | rfl
    · rw [List.nil_append, drop_plus_of_digits (spells.head small)]
      exact ⟨spells, below⟩
    · exact ⟨spells, below⟩

theorem spells_zeros {digits : Text} {number : Nat} (some : 0 < base)
    (spells : Spells base digits number) (zeros : Nat) :
    Spells base (List.replicate zeros '0' ++ digits) number := by
  induction zeros with
  | zero => exact spells
  | succ zeros ih =>
      obtain ⟨_, values, stands, rfl⟩ := ih
      rw [List.replicate_succ, List.cons_append]
      refine ⟨List.cons_ne_nil _ _, 0 :: values, .cons ⟨some, Or.inl rfl⟩ stands, ?_⟩
      rw [List.reverse_cons, Nat.ofDigits_append, Nat.ofDigits_singleton, Nat.mul_zero,
        Nat.add_zero]

theorem stands_digit {value : Nat} (small : base ≤ 16) (below : value < base) :
    Stands base (digit value) value := by
  have range : value < 16 := by omega
  refine ⟨below, Or.inl ?_⟩
  interval_cases value <;> rfl

/-- What is written spells what was written. -/
theorem spells_render (some : 2 ≤ base) (small : base ≤ 16) (number : Nat) :
    Spells base (render base number) number := by
  induction number using Nat.strongRecOn with
  | ind number ih =>
      rw [render]
      split
      · next short =>
          have below : number < base := by omega
          exact ⟨List.cons_ne_nil _ _, [number], .cons (stands_digit small below) .nil, by simp⟩
      · next long =>
          have smaller : number / base < number := Nat.div_lt_self (by omega) (by omega)
          obtain ⟨_, values, stands, front⟩ := ih (number / base) smaller
          have last := stands_digit small (Nat.mod_lt number (by omega : base > 0))
          refine ⟨by simp, values ++ [number % base], List.rel_append stands (.cons last .nil), ?_⟩
          rw [List.reverse_append, List.reverse_singleton, List.singleton_append,
            Nat.ofDigits_cons, ← front, Nat.mod_add_div]

end Digits

theorem after_mark_iff (text rest : Text) :
    afterMark? text = some rest ↔ ∃ mark ∈ marks, text = mark ++ rest := by
  simp only [marks, List.mem_cons, List.not_mem_nil, or_false, exists_eq_or_imp, exists_eq_left]
  unfold afterMark?
  split <;> simp_all [eq_comm]

/-- The second character of a mark is no digit. -/
theorem after_mark_of_writes {base number : Nat} {text : Text} (small : base ≤ 16)
    (writes : Writes base text number) : afterMark? text = none := by
  cases found : afterMark? text with
  | none => rfl
  | some rest =>
      obtain ⟨mark, listed, rfl⟩ := (after_mark_iff text rest).mp found
      obtain ⟨sign, signed, digits, same, ⟨_, values, stands, _⟩, _⟩ := writes
      simp only [marks, signs, List.mem_cons, List.not_mem_nil, or_false] at listed signed
      -- Behind a sign no mark begins, so the digits are the mark itself, zero and the letter.
      rcases listed with rfl | rfl <;> rcases signed with rfl | rfl <;> cases same
      all_goals
        cases stands with
        | cons _ stands =>
          cases stands with
          | cons second _ =>
            have letter : some 33 = some _ := digit_value_of_stands small second
            cases letter
            have below := second.1
            omega

theorem after_mark_append {mark : Text} (listed : mark ∈ marks) (rest : Text) :
    afterMark? (mark ++ rest) = some rest :=
  (after_mark_iff (mark ++ rest) rest).mpr ⟨mark, listed, rfl⟩

theorem address_marked {mark : Text} (listed : mark ∈ marks) (rest : Text) :
    address? (mark ++ rest) = unsigned? 16 rest := by
  rw [address?, after_mark_append listed, Option.getD_some]

theorem argument_marked {mark : Text} (listed : mark ∈ marks) (rest : Text) :
    argument? (mark ++ rest) = unsigned? 16 rest := by
  rw [argument?, after_mark_append listed]

theorem address_iff (text : Text) (number : Nat) :
    address? text = some number ↔
      ∃ mark ∈ [] :: marks, ∃ rest, text = mark ++ rest ∧ Writes 16 rest number := by
  constructor
  · intro read
    cases found : afterMark? text with
    | none =>
        rw [address?, found, Option.getD_none, unsigned_iff (Nat.le_refl 16)] at read
        exact ⟨[], List.mem_cons_self, text, rfl, read⟩
    | some rest =>
        obtain ⟨mark, listed, rfl⟩ := (after_mark_iff text rest).mp found
        rw [address_marked listed, unsigned_iff (Nat.le_refl 16)] at read
        exact ⟨mark, List.mem_cons_of_mem _ listed, rest, rfl, read⟩
  · intro known
    obtain ⟨mark, listed, rest, rfl, writes⟩ := known
    rcases List.mem_cons.mp listed with rfl | listed
    · rw [List.nil_append, address?, after_mark_of_writes (Nat.le_refl 16) writes,
        Option.getD_none, unsigned_iff (Nat.le_refl 16)]
      exact writes
    · rw [address_marked listed, unsigned_iff (Nat.le_refl 16)]
      exact writes

theorem argument_iff (text : Text) (number : Nat) :
    argument? text = some number ↔
      (∃ mark ∈ marks, ∃ rest, text = mark ++ rest ∧ Writes 16 rest number) ∨
        Writes 10 text number := by
  constructor
  · intro read
    cases found : afterMark? text with
    | none =>
        rw [argument?, found, unsigned_iff (by decide)] at read
        exact Or.inr read
    | some rest =>
        obtain ⟨mark, listed, rfl⟩ := (after_mark_iff text rest).mp found
        rw [argument_marked listed, unsigned_iff (Nat.le_refl 16)] at read
        exact Or.inl ⟨mark, listed, rest, rfl, read⟩
  · intro known
    rcases known with ⟨mark, listed, rest, rfl, writes⟩ | writes
    · rw [argument_marked listed, unsigned_iff (Nat.le_refl 16)]
      exact writes
    · rw [argument?, after_mark_of_writes (by decide) writes, unsigned_iff (by decide)]
      exact writes

/-- A number that is read has 64 bits. -/
theorem lt_of_argument {text : Text} {number : Nat} (read : argument? text = some number) :
    number < 0x10000000000000000 := by
  rcases (argument_iff text number).mp read with
    ⟨_, _, _, _, _, _, _, _, _, bounded⟩ | ⟨_, _, _, _, _, bounded⟩
  · exact bounded
  · exact bounded

theorem writes_render {base : Nat} (some : 2 ≤ base) (small : base ≤ 16) (number : UInt64) :
    Writes base (render base number.toNat) number.toNat :=
  ⟨[], List.mem_cons_self, _, rfl, spells_render some small _, number.toNat_lt⟩

/-- A manifest address is hexadecimal behind an optional mark, a command line number hexadecimal
behind a mark and decimal without it.  Zeros in front do not count, both written forms of a number of
64 bits are read back, and on marked text the two readers agree. -/
theorem numbers_are_read_exactly :
    (∀ text number, address? text = some number ↔
      ∃ mark ∈ [] :: marks, ∃ rest, text = mark ++ rest ∧ Writes 16 rest number) ∧
    (∀ text number, argument? text = some number ↔
      (∃ mark ∈ marks, ∃ rest, text = mark ++ rest ∧ Writes 16 rest number) ∨
        Writes 10 text number) ∧
    (∀ base digits number zeros, 0 < base → Spells base digits number →
      Spells base (List.replicate zeros '0' ++ digits) number) ∧
    (∀ number : UInt64, address? (marked number.toNat) = some number.toNat ∧
      argument? (marked number.toNat) = some number.toNat ∧
      argument? (render 10 number.toNat) = some number.toNat) ∧
    ∀ mark ∈ marks, ∀ rest, address? (mark ++ rest) = argument? (mark ++ rest) := by
  refine ⟨address_iff, argument_iff, ?_, ?_, ?_⟩
  · intro base digits number zeros some spells
    exact spells_zeros some spells zeros
  · intro number
    have lower : ['0', 'x'] ∈ marks := List.mem_cons_self
    have digits : Writes 16 (render 16 number.toNat) number.toNat :=
      writes_render (by decide) (by decide) number
    refine ⟨(address_iff _ _).mpr ?_, (argument_iff _ _).mpr (Or.inl ?_),
      (argument_iff _ _).mpr (Or.inr ?_)⟩
    · exact ⟨_, List.mem_cons_of_mem _ lower, _, rfl, digits⟩
    · exact ⟨_, lower, _, rfl, digits⟩
    · exact writes_render (by decide) (by decide) number
  · intro mark listed rest
    rw [address_marked listed, argument_marked listed]

/-- The largest number in mixed case, behind zeros, a sign and a mark. -/
theorem largest_number_is_read :
    let digits := "ffffFFFFffffffff".toList
    let text := "+00ffffFFFFffffffff".toList
    0 < 16 ∧ Spells 16 digits 0xffffffffffffffff ∧
      Spells 16 ("00".toList ++ digits) 0xffffffffffffffff ∧ ['0', 'X'] ∈ marks ∧
      address? (['0', 'X'] ++ text) = argument? (['0', 'X'] ++ text) ∧
      argument? (['0', 'X'] ++ text) = some 0xffffffffffffffff := by
  intro digits text
  obtain ⟨_, argument, zeros, _, agree⟩ := numbers_are_read_exactly
  have spells : Spells 16 digits 0xffffffffffffffff :=
    (of_digits_iff (Nat.le_refl 16) digits _).mp (by decide)
  have longer := zeros 16 digits _ 2 (by decide) spells
  have listed : ['0', 'X'] ∈ marks := by decide
  refine ⟨by decide, spells, longer, listed, agree _ listed text, ?_⟩
  exact (argument _ _).mpr (Or.inl ⟨_, listed, text, rfl, ['+'], by decide, _, rfl, longer,
    by decide⟩)

/-- One more does not fit, and a mark is not repeated. -/
example : ["10000000000000000", "0x0x1", "0x", "+", "-1", "++1", "１"].map
    (fun text => address? text.toList) = List.replicate 7 none := by
  decide

end RemoteBoot.Numeral
