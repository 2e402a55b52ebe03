import RemoteBoot.Json.Reader
import RemoteBoot.Proofs.Json.Grammar

/-!
# Reading numbers

The reader takes the longest number at the head of a text.  It takes a written number whole if
what follows cannot belong to it.
-/

set_option autoImplicit false

namespace RemoteBoot.Json

/-- What may follow a value: nothing, a blank, a comma or a closing bracket. -/
def Ends (text : Text) : Prop :=
  ∀ character ∈ text.head?, character ∈ blanks ++ [',', ']', '\x7d']

section Digits

/-- A text does not go on with a digit. -/
def Undigited (text : Text) : Prop :=
  ∀ character ∈ text.head?, isDigit character = false

theorem stands_of_digit {character : Char} (digit : isDigit character = true) :
    Numeral.Stands 10 character (character.toNat - 48) := by
  simp only [isDigit, Bool.and_eq_true, decide_eq_true_eq] at digit
  have valued : Numeral.digitValue? character = some (character.toNat - 48) := by
    rw [Numeral.digitValue?, if_pos digit]
  exact Numeral.stands_of_digit_value (by decide) valued (by omega)

theorem digit_of_stands {character : Char} {value : Nat}
    (stands : Numeral.Stands 10 character value) : isDigit character = true := by
  obtain ⟨below, spelled⟩ := stands
  interval_cases value <;> rcases spelled with same | same <;> cases same <;> rfl

theorem digits_of_spells {digits : Text} {number : Nat} (spells : Numeral.Spells 10 digits number) :
    ∀ character ∈ digits, isDigit character = true := by
  intro character listed
  obtain ⟨_, values, stands, _⟩ := spells
  obtain ⟨place, inside, rfl⟩ := List.getElem_of_mem listed
  exact digit_of_stands (stands.get inside (by rw [← stands.length_eq]; exact inside))

theorem spells_of_digits {digits : Text} (some : digits ≠ [])
    (all : ∀ character ∈ digits, isDigit character = true) :
    ∃ number, Numeral.Spells 10 digits number := by
  refine ⟨_, some, digits.map fun character => character.toNat - 48, ?_, rfl⟩
  rw [List.forall₂_map_right_iff, List.forall₂_same]
  exact fun character listed => stands_of_digit (all character listed)

theorem digits_read {digits rest : Text} {number : Nat} (spells : Numeral.Spells 10 digits number)
    (apart : Undigited rest) : digits? (digits ++ rest) = some (digits, rest) := by
  have all := digits_of_spells spells
  have stopped : rest.takeWhile isDigit = [] ∧ rest.dropWhile isDigit = rest := by
    cases rest with
    | nil => exact ⟨rfl, rfl⟩
    | cons character rest =>
        have other := apart character rfl
        exact ⟨List.takeWhile_cons_of_neg (by simp [other]),
          List.dropWhile_cons_of_neg (by simp [other])⟩
  rw [digits?, List.takeWhile_append_of_pos all, List.dropWhile_append_of_pos all, stopped.1,
    stopped.2, List.append_nil]
  cases digits with
  | nil => exact absurd rfl spells.1
  | cons character digits => rfl

theorem digits_written {text digits rest : Text} (read : digits? text = some (digits, rest)) :
    text = digits ++ rest ∧ ∃ number, Numeral.Spells 10 digits number := by
  unfold digits? at read
  split at read
  · cases read
  · next some =>
      cases read
      refine ⟨List.takeWhile_append_dropWhile.symm, spells_of_digits some ?_⟩
      exact fun character listed => List.all_eq_true.mp List.all_takeWhile character listed

end Digits

section Parts

/-- What may follow a value cannot belong to a number. -/
theorem Ends.apart {rest : Text} (ends : Ends rest) : ∀ character ∈ rest.head?,
    isDigit character = false ∧ character ≠ '.' ∧ character ≠ 'e' ∧ character ≠ 'E' := by
  have all : ∀ character ∈ blanks ++ [',', ']', '\x7d'],
      isDigit character = false ∧ character ≠ '.' ∧ character ≠ 'e' ∧ character ≠ 'E' := by
    simp [blanks, isDigit]
  exact fun character first => all character (ends character first)

theorem whole_read {digits rest : Text} {number : Nat} (whole : Whole digits number)
    (apart : Undigited rest) : whole? (digits ++ rest) = some (digits, rest) := by
  obtain ⟨spells, zero⟩ := whole
  rw [whole?, digits_read spells apart]
  exact if_neg fun refused => refused.2 (zero refused.1)

theorem fraction_read {fraction rest : Text} (fractional : Fraction fraction)
    (apart : Undigited rest) (other : '.' ∉ rest.head?) :
    fraction? (fraction ++ rest) = some (decide (fraction ≠ []), rest) := by
  cases fractional with
  | absent =>
      rw [List.nil_append, fraction?]
      · rfl
      · rintro _ rfl
        exact other rfl
  | point spells =>
      rw [List.cons_append, fraction?, digits_read spells apart]
      rfl

/-- Digits start with no sign. -/
theorem unsigned_of_spells {digits : Text} {number : Nat}
    (spells : Numeral.Spells 10 digits number) (rest : Text) :
    ∀ character ∈ (digits ++ rest).head?, character ≠ '+' ∧ character ≠ '-' := by
  have all := digits_of_spells spells
  cases digits with
  | nil => exact absurd rfl spells.1
  | cons first digits =>
      rintro _ ⟨⟩
      have digit := all first List.mem_cons_self
      constructor <;> rintro rfl <;> cases digit

theorem exponent_read {exponent rest : Text} (scaled : Exponent exponent) (ends : Ends rest) :
    exponent? (exponent ++ rest) = some (decide (exponent ≠ []), rest) := by
  cases scaled with
  | absent =>
      cases rest with
      | nil => rfl
      | cons character rest =>
          obtain ⟨_, _, lower, upper⟩ := ends.apart character rfl
          exact if_neg (not_or.mpr ⟨lower, upper⟩)
  | @power mark sign digits number marked signed spells =>
      have apart : Undigited rest := fun character first => (ends.apart character first).1
      have read := digits_read spells apart
      have unsigned := unsigned_of_spells spells rest
      have some : mark = 'e' ∨ mark = 'E' := by simpa using marked
      simp only [List.mem_cons, List.not_mem_nil, or_false] at signed
      -- A sign is dropped by computation; without one the digits are left as they are.
      rcases signed with rfl | rfl | rfl
      · rw [List.cons_append, List.cons_append, exponent?, if_pos some, List.nil_append]
        · exact congrArg (Option.map fun found => (true, found.2)) read
        · rintro _ same
          exact (unsigned '+' (by rw [← List.nil_append digits, same]; rfl)).1 rfl
        · rintro _ same
          exact (unsigned '-' (by rw [← List.nil_append digits, same]; rfl)).2 rfl
      · exact (if_pos some).trans (congrArg (Option.map fun found => (true, found.2)) read)
      · exact (if_pos some).trans (congrArg (Option.map fun found => (true, found.2)) read)

/-- A number behind its sign. -/
def magnitude? (negative : Bool) (text : Text) : Option (Json × Text) := do
  let (digits, rest) ← whole? text
  let (fractional, rest) ← fraction? rest
  let (scaled, rest) ← exponent? rest
  let value := if negative || fractional || scaled then none else Numeral.ofDigits? 10 digits
  some (.number value, rest)

theorem number_unsigned {text : Text} (unsigned : '-' ∉ text.head?) :
    number? text = magnitude? false text := by
  unfold number?
  split
  next negative rest same =>
    split at same
    · exact absurd rfl unsigned
    · cases same
      rfl

theorem magnitude_read {digits fraction exponent rest : Text} {number : Nat} (negative : Bool)
    (whole : Whole digits number) (fractional : Fraction fraction) (scaled : Exponent exponent)
    (ends : Ends rest) :
    magnitude? negative (digits ++ (fraction ++ (exponent ++ rest))) =
      some (.number (if negative || decide (fraction ≠ []) || decide (exponent ≠ []) then none
        else some number), rest) := by
  have behind : ∀ character ∈ (exponent ++ rest).head?,
      isDigit character = false ∧ character ≠ '.' := by
    cases scaled with
    | absent =>
        intro character first
        obtain ⟨digit, point, _⟩ := ends.apart character first
        exact ⟨digit, point⟩
    | power marked signed spells =>
        rintro _ ⟨⟩
        simp only [List.mem_cons, List.not_mem_nil, or_false] at marked
        rcases marked with rfl | rfl <;> decide
  have apart : Undigited (exponent ++ rest) := fun character first => (behind character first).1
  have other : '.' ∉ (exponent ++ rest).head? := fun first => (behind _ first).2 rfl
  have further : Undigited (fraction ++ (exponent ++ rest)) := by
    cases fractional with
    | absent => exact apart
    | point spells =>
        rintro _ ⟨⟩
        rfl
  have value : Numeral.ofDigits? 10 digits = some number :=
    (Numeral.of_digits_iff (by decide) digits number).mpr whole.1
  rw [magnitude?, whole_read whole further]
  change (fraction? _).bind _ = _
  rw [fraction_read fractional apart other]
  change (exponent? _).bind _ = _
  rw [exponent_read scaled ends, ← value]
  rfl

theorem number_of_written {text rest : Text} {whole : Option Nat} (written : Number text whole)
    (ends : Ends rest) : number? (text ++ rest) = some (.number whole, rest) := by
  cases written with
  | @whole _ number whole =>
      have unsigned : '-' ∉ (text ++ rest).head? := fun first =>
        (unsigned_of_spells whole.1 rest _ first).2 rfl
      rw [number_unsigned unsigned]
      exact magnitude_read false whole .absent .absent ends
  | @other sign digits fraction exponent number signed whole fractional scaled more =>
      have unsigned : '-' ∉ (digits ++ (fraction ++ (exponent ++ rest))).head? := fun first =>
        (unsigned_of_spells whole.1 _ _ first).2 rfl
      simp only [List.mem_cons, List.not_mem_nil, or_false] at signed
      simp only [List.append_assoc]
      rcases signed with rfl | rfl
      · have kept : (false || decide (fraction ≠ []) || decide (exponent ≠ [])) = true := by
          cases fraction <;> cases exponent <;> first | rfl | exact absurd rfl more
        rw [List.nil_append, number_unsigned unsigned,
          magnitude_read false whole fractional scaled ends, if_pos kept]
      · exact magnitude_read true whole fractional scaled ends

theorem whole_written {text digits rest : Text} (read : whole? text = some (digits, rest)) :
    text = digits ++ rest ∧ ∃ number, Whole digits number := by
  obtain ⟨⟨front, others⟩, found, kept⟩ := Option.bind_eq_some_iff.mp read
  obtain ⟨rfl, number, spells⟩ := digits_written found
  by_cases refused : front.head? = some '0' ∧ front ≠ ['0']
  · cases (if_pos refused).symm.trans kept
  · have zero : front.head? = some '0' → front = ['0'] := fun first =>
      Decidable.byContradiction fun longer => refused ⟨first, longer⟩
    cases (if_neg refused).symm.trans kept
    exact ⟨rfl, number, spells, zero⟩

theorem fraction_written {text rest : Text} {present : Bool}
    (read : fraction? text = some (present, rest)) :
    ∃ fraction, text = fraction ++ rest ∧ Fraction fraction ∧ present = decide (fraction ≠ []) := by
  unfold fraction? at read
  split at read
  · obtain ⟨⟨digits, rest⟩, found, same⟩ := Option.map_eq_some_iff.mp read
    cases same
    obtain ⟨rfl, number, spells⟩ := digits_written found
    exact ⟨_, rfl, .point spells, rfl⟩
  · cases read
    exact ⟨[], rfl, .absent, rfl⟩

theorem exponent_written {text rest : Text} {present : Bool}
    (read : exponent? text = some (present, rest)) :
    ∃ exponent, text = exponent ++ rest ∧ Exponent exponent ∧ present = decide (exponent ≠ []) := by
  cases text with
  | nil =>
      cases read
      exact ⟨[], rfl, .absent, rfl⟩
  | cons mark text =>
      by_cases some : mark = 'e' ∨ mark = 'E'
      · have marked : mark ∈ ['e', 'E'] := by simpa using some
        obtain ⟨⟨digits, rest⟩, found, same⟩ :=
          Option.map_eq_some_iff.mp ((if_pos some).symm.trans read)
        cases same
        split at found
        · obtain ⟨rfl, number, spells⟩ := digits_written found
          exact ⟨_, rfl, @Exponent.power mark ['+'] _ number marked (by simp) spells, rfl⟩
        · obtain ⟨rfl, number, spells⟩ := digits_written found
          exact ⟨_, rfl, @Exponent.power mark ['-'] _ number marked (by simp) spells, rfl⟩
        · obtain ⟨rfl, number, spells⟩ := digits_written found
          exact ⟨_, rfl, @Exponent.power mark [] _ number marked (by simp) spells, rfl⟩
      · cases (if_neg some).symm.trans read
        exact ⟨[], rfl, .absent, rfl⟩

theorem magnitude_written {negative : Bool} {text rest : Text} {json : Json}
    (read : magnitude? negative text = some (json, rest)) :
    ∃ digits fraction exponent number, text = digits ++ (fraction ++ (exponent ++ rest)) ∧
      Whole digits number ∧ Fraction fraction ∧ Exponent exponent ∧
      json = .number (if negative || decide (fraction ≠ []) || decide (exponent ≠ []) then none
        else some number) := by
  obtain ⟨⟨digits, _⟩, first, read⟩ := Option.bind_eq_some_iff.mp read
  obtain ⟨⟨fractional, _⟩, second, read⟩ := Option.bind_eq_some_iff.mp read
  obtain ⟨⟨scaled, behind⟩, third, read⟩ := Option.bind_eq_some_iff.mp read
  obtain ⟨rfl, number, whole⟩ := whole_written first
  obtain ⟨fraction, rfl, fractions, rfl⟩ := fraction_written second
  obtain ⟨exponent, rfl, exponents, rfl⟩ := exponent_written third
  have value : Numeral.ofDigits? 10 digits = some number :=
    (Numeral.of_digits_iff (by decide) digits number).mpr whole.1
  cases read
  exact ⟨digits, fraction, exponent, number, rfl, whole, fractions, exponents, by rw [value]⟩

theorem number_written {text rest : Text} {json : Json} (read : number? text = some (json, rest)) :
    ∃ front whole, text = front ++ rest ∧ Number front whole ∧ json = .number whole := by
  by_cases negative : '-' ∈ text.head?
  · obtain ⟨unsigned, rfl⟩ := List.head?_eq_some_iff.mp negative
    obtain ⟨digits, fraction, exponent, number, rfl, whole, fractional, scaled, rfl⟩ :=
      magnitude_written read
    refine ⟨['-'] ++ digits ++ fraction ++ exponent, none, by simp, ?_, rfl⟩
    exact .other (by simp) whole fractional scaled (by simp)
  · rw [number_unsigned negative] at read
    obtain ⟨digits, fraction, exponent, number, rfl, whole, fractional, scaled, rfl⟩ :=
      magnitude_written read
    by_cases more : fraction ++ exponent = []
    · obtain ⟨rfl, rfl⟩ := List.append_eq_nil_iff.mp more
      exact ⟨digits, some number, rfl, .whole whole, rfl⟩
    · refine ⟨[] ++ digits ++ fraction ++ exponent, none, by simp, ?_, ?_⟩
      · exact .other (by simp) whole fractional scaled more
      · cases fraction <;> cases exponent <;> first | rfl | exact absurd rfl more

end Parts

end RemoteBoot.Json
