import RemoteBoot.Proofs.Json.Numbers
import RemoteBoot.Proofs.Json.Strings

/-!
# Reading JSON by its grammar

The reader accepts exactly the texts of the grammar, with the value that they write.  Both
directions are inductions on the depth that it may go: a depth of its length is enough for a written
value, in front of anything that may follow one.
-/

set_option autoImplicit false

namespace RemoteBoot.Json

section Blanks

theorem is_blank_iff (character : Char) : isBlank character = true ↔ character ∈ blanks := by
  simp [isBlank, blanks, or_assoc]

theorem skip_blank {front : Text} (blank : Blank front) (text : Text) :
    skip (front ++ text) = skip text :=
  List.dropWhile_append_of_pos fun character listed =>
    (is_blank_iff character).mpr (blank character listed)

theorem skip_cons {character : Char} (dark : character ∉ blanks) (text : Text) :
    skip (character :: text) = character :: text :=
  List.dropWhile_cons_of_neg fun blank => dark ((is_blank_iff character).mp blank)

theorem blank_skipped (text : Text) : ∃ front, Blank front ∧ text = front ++ skip text := by
  refine ⟨text.takeWhile isBlank, fun character listed => ?_, List.takeWhile_append_dropWhile.symm⟩
  exact (is_blank_iff character).mp (List.all_eq_true.mp List.all_takeWhile character listed)

theorem skip_all {text : Text} (blank : Blank text) : skip text = [] := by
  rw [← List.append_nil text, skip_blank blank]
  rfl

theorem Ends.blank_append {front rest : Text} (blank : Blank front) (ends : Ends rest) :
    Ends (front ++ rest) := by
  cases front with
  | nil => exact ends
  | cons character front =>
      rintro _ ⟨⟩
      exact List.mem_append_left _ (blank character List.mem_cons_self)

theorem ends_cons {character : Char} (closing : character ∈ [',', ']', '\x7d']) (rest : Text) :
    Ends (character :: rest) := by
  rintro _ ⟨⟩
  exact List.mem_append_right _ closing

end Blanks

section Heads

/-- A text starts with a character that may begin a value. -/
def Opens (text : Text) : Prop :=
  ∃ character behind, text = character :: behind ∧ character ∉ blanks ++ [']', '\x7d']

theorem whole_opens {digits : Text} {number : Nat} (whole : Whole digits number) :
    ∃ character behind, digits = character :: behind ∧ isDigit character = true := by
  cases digits with
  | nil => exact absurd rfl whole.1.1
  | cons character digits =>
      exact ⟨character, digits, rfl, digits_of_spells whole.1 _ List.mem_cons_self⟩

theorem number_opens {text : Text} {whole : Option Nat} (written : Number text whole) :
    ∃ character behind, text = character :: behind ∧
      (isDigit character = true ∨ character = '-') := by
  cases written with
  | whole whole =>
      obtain ⟨character, behind, rfl, digit⟩ := whole_opens whole
      exact ⟨character, behind, rfl, Or.inl digit⟩
  | other signed whole =>
      obtain ⟨character, behind, rfl, digit⟩ := whole_opens whole
      simp only [List.mem_cons, List.not_mem_nil, or_false] at signed
      rcases signed with rfl | rfl
      · exact ⟨character, _, rfl, Or.inl digit⟩
      · exact ⟨'-', _, rfl, Or.inr rfl⟩

/-- The first character of a number starts no other value. -/
theorem number_starts_apart {character : Char}
    (first : isDigit character = true ∨ character = '-') :
    character ∉ ['n', 't', 'f', '"', '[', '\x7b'] ++ (blanks ++ [']', '\x7d']) := by
  have all : ∀ other ∈ ['n', 't', 'f', '"', '[', '\x7b'] ++ (blanks ++ [']', '\x7d']),
      isDigit other = false ∧ other ≠ '-' := by
    simp [blanks, isDigit]
  intro listed
  obtain ⟨digit, sign⟩ := all character listed
  rcases first with first | first
  · rw [digit] at first
    cases first
  · exact sign first

theorem value_of_number {character : Char} (first : isDigit character = true ∨ character = '-')
    (fuel : Nat) (text : Text) :
    value? (fuel + 1) (character :: text) = number? (character :: text) := by
  have apart := number_starts_apart first
  rw [value?] <;> rintro _ ⟨⟩ <;> exact apart (by decide)

theorem value_opens {text : Text} {json : Json} (value : Value text json) : Opens text := by
  cases value with
  | number written =>
      obtain ⟨character, behind, rfl, first⟩ := number_opens written
      exact ⟨character, behind, rfl, fun listed =>
        number_starts_apart first (List.mem_append_right _ listed)⟩
  | string quoted =>
      cases quoted
      exact ⟨_, _, rfl, by decide⟩
  | _ => exact ⟨_, _, rfl, by decide⟩

theorem document_opens {text : Text} {json : Json} (document : Document text json) (rest : Text) :
    Opens (skip (text ++ rest)) := by
  cases document with
  | mk before value after =>
      obtain ⟨character, behind, rfl, dark⟩ := value_opens value
      have visible : character ∉ blanks := fun blank => dark (List.mem_append_left _ blank)
      rw [List.append_assoc, List.append_assoc, skip_blank before, List.cons_append,
        skip_cons visible]
      exact ⟨character, _, rfl, dark⟩

theorem items_open {text : Text} {items : List Json} (listed : Items text items) (rest : Text) :
    Opens (skip (text ++ rest)) := by
  cases listed with
  | last value => exact document_opens value rest
  | more value behind =>
      rw [List.append_assoc]
      exact document_opens value _

theorem member_opens {text : Text} {member : Option Text × Json} (written : Member text member)
    (rest : Text) : ∃ behind, skip (text ++ rest) = '"' :: behind := by
  cases written with
  | mk before named after valued =>
      cases named
      simp only [List.append_assoc, List.cons_append]
      rw [skip_blank before, skip_cons (by decide)]
      exact ⟨_, rfl⟩

theorem members_open {text : Text} {members : List (Option Text × Json)}
    (listed : Members text members) (rest : Text) : Opens (skip (text ++ rest)) := by
  cases listed with
  | last written =>
      obtain ⟨behind, shape⟩ := member_opens written rest
      exact ⟨'"', behind, shape, by decide⟩
  | @more text others _ _ written =>
      obtain ⟨behind, shape⟩ := member_opens written (',' :: others ++ rest)
      rw [List.append_assoc]
      exact ⟨'"', behind, shape, by decide⟩

end Heads

section Brackets

/-- Behind an opening bracket stands something else than the closing one. -/
theorem value_of_items {text : Text} (opens : Opens (skip text)) (fuel : Nat) :
    value? (fuel + 1) ('[' :: text) =
      (items? fuel (skip text)).map fun found => (.array found.1, found.2) := by
  obtain ⟨character, behind, shape, dark⟩ := opens
  rw [value?, shape]
  split
  · next closed => cases closed; exact absurd (by decide) dark
  · rfl

theorem value_of_members {text : Text} (opens : Opens (skip text)) (fuel : Nat) :
    value? (fuel + 1) ('\x7b' :: text) =
      (members? fuel (skip text)).map fun found => (.object found.1, found.2) := by
  obtain ⟨character, behind, shape, dark⟩ := opens
  rw [value?, shape]
  split
  · next closed => cases closed; exact absurd (by decide) dark
  · rfl

theorem value_of_closed_array {text rest : Text} (closed : skip text = ']' :: rest) (fuel : Nat) :
    value? (fuel + 1) ('[' :: text) = some (.array [], rest) := by
  rw [value?, closed]
  rfl

theorem value_of_closed_object {text rest : Text} (closed : skip text = '\x7d' :: rest)
    (fuel : Nat) : value? (fuel + 1) ('\x7b' :: text) = some (.object [], rest) := by
  rw [value?, closed]
  rfl

theorem value_of_quote (fuel : Nat) (text : Text) :
    value? (fuel + 1) ('"' :: text) =
      (string? text).map fun found => (.string found.1, found.2) := by
  rw [value?]

end Brackets

section Completeness

/-- The reader reads what is written if it may go so deep. -/
def ReadsValues (fuel : Nat) : Prop :=
  ∀ text json, Value text json → text.length ≤ fuel → ∀ rest, Ends rest →
    value? fuel (text ++ rest) = some (json, rest)

def ReadsItems (fuel : Nat) : Prop :=
  ∀ text items, Items text items → text.length < fuel → ∀ rest,
    items? fuel (skip (text ++ ']' :: rest)) = some (items, rest)

def ReadsMembers (fuel : Nat) : Prop :=
  ∀ text members, Members text members → text.length < fuel → ∀ rest,
    members? fuel (skip (text ++ '\x7d' :: rest)) = some (members, rest)

/-- The blanks behind a value are left for its reader's caller. -/
theorem document_read {fuel : Nat} (values : ReadsValues fuel) {text rest : Text} {json : Json}
    (document : Document text json) (fits : text.length ≤ fuel) (ends : Ends rest) :
    ∃ back, Blank back ∧ value? fuel (skip (text ++ rest)) = some (json, back ++ rest) := by
  cases document with
  | @mk front text back _ before value after =>
      obtain ⟨character, behind, rfl, dark⟩ := value_opens value
      have visible : character ∉ blanks := fun blank => dark (List.mem_append_left _ blank)
      simp only [List.length_append] at fits
      refine ⟨back, after, ?_⟩
      rw [List.append_assoc, List.append_assoc, skip_blank before, List.cons_append,
        skip_cons visible]
      exact values _ json value (by omega) _ (ends.blank_append after)

theorem reads_values {fuel : Nat} (items : ReadsItems fuel) (members : ReadsMembers fuel) :
    ReadsValues (fuel + 1) := by
  intro written json value fits rest ends
  cases value with
  | null => rfl
  | true => rfl
  | false => rfl
  | number written =>
      obtain ⟨character, behind, rfl, first⟩ := number_opens written
      rw [List.cons_append, value_of_number first]
      exact number_of_written written ends
  | @string _ content quoted =>
      cases quoted with
      | @mk body codes _ within means =>
          have read : string? (body ++ '"' :: rest) = some (content, rest) :=
            (string_iff _ rest content).mpr ⟨body, codes, rfl, within, means⟩
          rw [List.cons_append, List.cons_append, value_of_quote, List.append_assoc,
            List.singleton_append, read]
          rfl
  | @emptyArray text blank =>
      have closed : skip (text ++ [']'] ++ rest) = ']' :: rest := by
        rw [List.append_assoc, skip_blank blank]
        exact skip_cons (by decide) rest
      exact value_of_closed_array closed fuel
  | @array text found listed =>
      simp only [List.cons_append, List.length_cons, List.length_append] at fits
      rw [List.cons_append, List.cons_append, List.append_assoc, List.singleton_append,
        value_of_items (items_open listed _), items text found listed (by omega)]
      rfl
  | @emptyObject text blank =>
      have closed : skip (text ++ ['\x7d'] ++ rest) = '\x7d' :: rest := by
        rw [List.append_assoc, skip_blank blank]
        exact skip_cons (by decide) rest
      exact value_of_closed_object closed fuel
  | @object text found listed =>
      simp only [List.cons_append, List.length_cons, List.length_append] at fits
      rw [List.cons_append, List.cons_append, List.append_assoc, List.singleton_append,
        value_of_members (members_open listed _), members text found listed (by omega)]
      rfl

/-- The blanks between a value and what closes or continues a list. -/
theorem skip_mark {back : Text} {mark : Char} (blank : Blank back) (dark : mark ∉ blanks)
    (rest : Text) : skip (back ++ mark :: rest) = mark :: rest := by
  rw [skip_blank blank, skip_cons dark]

theorem reads_items {fuel : Nat} (values : ReadsValues fuel) (items : ReadsItems fuel) :
    ReadsItems (fuel + 1) := by
  intro text found listed fits rest
  cases listed with
  | @last _ item value =>
      obtain ⟨back, blank, read⟩ := document_read values value (by omega)
        (ends_cons (by decide : ']' ∈ [',', ']', '\x7d']) rest)
      simp only [items?, read, skip_mark blank (by decide : ']' ∉ blanks), Option.bind_eq_bind,
        Option.bind_some]
  | @more text others item found value behind =>
      simp only [List.length_append, List.length_cons] at fits
      obtain ⟨back, blank, read⟩ := document_read values value (by omega)
        (ends_cons (by decide : ',' ∈ [',', ']', '\x7d']) (others ++ ']' :: rest))
      have further := items others found behind (by omega) rest
      rw [List.append_assoc, List.cons_append]
      simp only [items?, read, skip_mark blank (by decide : ',' ∉ blanks), further,
        Option.bind_eq_bind, Option.bind_some]

/-- The head of a member: its name and the colon. -/
theorem member_read {fuel : Nat} (values : ReadsValues fuel) {text rest : Text}
    {name : Option Text} {json : Json} (written : Member text (name, json))
    (fits : text.length ≤ fuel) (ends : Ends rest) :
    ∃ behind between value back, skip (text ++ rest) = '"' :: behind ∧
      string? behind = some (name, between) ∧ skip between = ':' :: value ∧ Blank back ∧
      value? fuel (skip value) = some (json, back ++ rest) := by
  cases written with
  | @mk front quoted between text _ _ before named after valued =>
      cases named with
      | @mk body codes _ within means =>
          simp only [List.length_append, List.length_cons] at fits
          obtain ⟨back, blank, read⟩ := document_read values valued (by omega) ends
          refine ⟨body ++ '"' :: (between ++ ':' :: (text ++ rest)),
            between ++ ':' :: (text ++ rest), text ++ rest, back, ?_, ?_,
            skip_mark after (by decide) _, blank, read⟩
          · simp only [List.append_assoc, List.cons_append, List.nil_append]
            rw [skip_blank before, skip_cons (by decide)]
          · exact (string_iff _ _ _).mpr ⟨body, codes, rfl, within, means⟩

theorem reads_members {fuel : Nat} (values : ReadsValues fuel) (members : ReadsMembers fuel) :
    ReadsMembers (fuel + 1) := by
  intro text found listed fits rest
  cases listed with
  | @last _ member written =>
      obtain ⟨behind, between, value, back, head, name, colon, blank, read⟩ :=
        member_read values written (by omega)
          (ends_cons (by decide : '\x7d' ∈ [',', ']', '\x7d']) rest)
      simp only [head, members?, name, colon, read, skip_mark blank (by decide : '\x7d' ∉ blanks),
        Option.bind_eq_bind, Option.bind_some]
  | @more text others member found written further =>
      simp only [List.length_append, List.length_cons] at fits
      obtain ⟨behind, between, value, back, head, name, colon, blank, read⟩ :=
        member_read values written (by omega)
          (ends_cons (by decide : ',' ∈ [',', ']', '\x7d']) (others ++ '\x7d' :: rest))
      have others_read := members others found further (by omega) rest
      rw [List.append_assoc, List.cons_append]
      simp only [head, members?, name, colon, read, skip_mark blank (by decide : ',' ∉ blanks),
        others_read, Option.bind_eq_bind, Option.bind_some]

theorem reads_written (fuel : Nat) : ReadsValues fuel ∧ ReadsItems fuel ∧ ReadsMembers fuel := by
  induction fuel with
  | zero =>
      refine ⟨fun text json value fits => ?_, fun _ _ _ fits => ?_, fun _ _ _ fits => ?_⟩
      · obtain ⟨character, behind, rfl, _⟩ := value_opens value
        cases fits
      · cases fits
      · cases fits
  | succ fuel ih =>
      obtain ⟨values, items, members⟩ := ih
      exact ⟨reads_values items members, reads_items values items, reads_members values members⟩

end Completeness

section Soundness

def WritesValues (fuel : Nat) : Prop :=
  ∀ text json rest, value? fuel text = some (json, rest) →
    ∃ front, text = front ++ rest ∧ Value front json

def WritesItems (fuel : Nat) : Prop :=
  ∀ text items rest, items? fuel text = some (items, rest) →
    ∃ front, text = front ++ ']' :: rest ∧ Items front items

def WritesMembers (fuel : Nat) : Prop :=
  ∀ text members rest, members? fuel text = some (members, rest) →
    ∃ front, text = front ++ '\x7d' :: rest ∧ Members front members

theorem Document.blank_append {front text : Text} {json : Json} (blank : Blank front)
    (document : Document text json) : Document (front ++ text) json := by
  cases document with
  | mk before value after =>
      have further := Document.mk (List.forall_mem_append.mpr ⟨blank, before⟩) value after
      simpa only [List.append_assoc] using further

theorem Items.blank_append {front text : Text} {items : List Json} (blank : Blank front)
    (listed : Items text items) : Items (front ++ text) items := by
  cases listed with
  | last value => exact .last (value.blank_append blank)
  | more value behind =>
      rw [← List.append_assoc]
      exact .more (value.blank_append blank) behind

theorem Members.blank_append {front text : Text} {members : List (Option Text × Json)}
    (blank : Blank front) (listed : Members text members) : Members (front ++ text) members := by
  have member : ∀ {text member}, Member text member → Member (front ++ text) member := by
    intro text member written
    cases written with
    | mk before named after valued =>
        have further :=
          Member.mk (List.forall_mem_append.mpr ⟨blank, before⟩) named after valued
        simpa only [List.append_assoc] using further
  cases listed with
  | last written => exact .last (member written)
  | more written behind =>
      rw [← List.append_assoc]
      exact .more (member written) behind

/-- A value and the blanks that the reader skips behind it. -/
theorem document_written {text behind rest : Text} {fuel : Nat} {json : Json}
    (values : WritesValues fuel) (read : value? fuel text = some (json, behind))
    (skipped : skip behind = rest) : ∃ front, text = front ++ rest ∧ Document front json := by
  obtain ⟨front, rfl, value⟩ := values text json behind read
  obtain ⟨back, blank, shape⟩ := blank_skipped behind
  have document := Document.mk (nofun : Blank []) value blank
  refine ⟨[] ++ front ++ back, ?_, document⟩
  rw [shape, skipped, List.nil_append, List.append_assoc]

theorem string_written {text rest : Text} {content : Option Text}
    (read : string? text = some (content, rest)) :
    ∃ front, '"' :: text = front ++ rest ∧ Quoted front content := by
  obtain ⟨body, codes, rfl, within, means⟩ := (string_iff text rest content).mp read
  exact ⟨'"' :: body ++ ['"'], by simp, .mk within means⟩

theorem writes_values {fuel : Nat} (items : WritesItems fuel) (members : WritesMembers fuel) :
    WritesValues (fuel + 1) := by
  intro text json rest read
  unfold value? at read
  split at read
  · cases read
    exact ⟨_, rfl, .null⟩
  · cases read
    exact ⟨_, rfl, .true⟩
  · cases read
    exact ⟨_, rfl, .false⟩
  · obtain ⟨⟨content, _⟩, found, same⟩ := Option.map_eq_some_iff.mp read
    cases same
    obtain ⟨front, shape, quoted⟩ := string_written found
    exact ⟨front, shape, .string quoted⟩
  · next text =>
      obtain ⟨blanks, blank, shape⟩ := blank_skipped text
      split at read
      · next closed =>
          cases read
          refine ⟨'[' :: blanks ++ [']'], ?_, .emptyArray blank⟩
          rw [shape, closed]
          simp
      · obtain ⟨⟨found, _⟩, listed, same⟩ := Option.map_eq_some_iff.mp read
        cases same
        obtain ⟨front, written, listed⟩ := items _ _ _ listed
        refine ⟨'[' :: (blanks ++ front) ++ [']'], ?_, .array (listed.blank_append blank)⟩
        rw [shape, written]
        simp
  · next text =>
      obtain ⟨blanks, blank, shape⟩ := blank_skipped text
      split at read
      · next closed =>
          cases read
          refine ⟨'\x7b' :: blanks ++ ['\x7d'], ?_, .emptyObject blank⟩
          rw [shape, closed]
          simp
      · obtain ⟨⟨found, _⟩, listed, same⟩ := Option.map_eq_some_iff.mp read
        cases same
        obtain ⟨front, written, listed⟩ := members _ _ _ listed
        refine ⟨'\x7b' :: (blanks ++ front) ++ ['\x7d'], ?_, .object (listed.blank_append blank)⟩
        rw [shape, written]
        simp
  · obtain ⟨front, whole, shape, written, rfl⟩ := number_written read
    exact ⟨front, shape, .number written⟩

theorem writes_items {fuel : Nat} (values : WritesValues fuel) (items : WritesItems fuel) :
    WritesItems (fuel + 1) := by
  intro text found rest read
  obtain ⟨⟨item, behind⟩, first, read⟩ := Option.bind_eq_some_iff.mp read
  dsimp only at read
  split at read
  · next closed =>
      cases read
      obtain ⟨front, shape, document⟩ := document_written values first closed
      exact ⟨front, shape, .last document⟩
  · next others continued =>
      obtain ⟨⟨found, _⟩, second, read⟩ := Option.bind_eq_some_iff.mp read
      cases read
      obtain ⟨front, rfl, document⟩ := document_written values first continued
      obtain ⟨blanks, blank, shape⟩ := blank_skipped others
      obtain ⟨further, written, listed⟩ := items _ _ _ second
      refine ⟨front ++ ',' :: (blanks ++ further), ?_, .more document (listed.blank_append blank)⟩
      rw [shape, written]
      simp
  · cases read

theorem member_written {text between value behind rest : Text} {fuel : Nat} {name : Option Text}
    {json : Json} (values : WritesValues fuel) (named : string? text = some (name, between))
    (colon : skip between = ':' :: value) (read : value? fuel (skip value) = some (json, behind))
    (skipped : skip behind = rest) :
    ∃ front, '"' :: text = front ++ rest ∧ Member front (name, json) := by
  obtain ⟨quote, spelled, quoted⟩ := string_written named
  obtain ⟨back, after, shape⟩ := blank_skipped between
  obtain ⟨blanks, blank, split⟩ := blank_skipped value
  obtain ⟨document, written, valued⟩ := document_written values read skipped
  refine ⟨[] ++ quote ++ back ++ ':' :: (blanks ++ document), ?_,
    .mk (nofun : Blank []) quoted after (valued.blank_append blank)⟩
  rw [spelled, shape, colon, split, written]
  simp

theorem writes_members {fuel : Nat} (values : WritesValues fuel) (members : WritesMembers fuel) :
    WritesMembers (fuel + 1) := by
  intro text found rest read
  unfold members? at read
  split at read
  next text =>
    obtain ⟨⟨name, between⟩, first, read⟩ := Option.bind_eq_some_iff.mp read
    dsimp only at read
    split at read
    · next value colon =>
        obtain ⟨⟨json, behind⟩, second, read⟩ := Option.bind_eq_some_iff.mp read
        dsimp only at read
        split at read
        · next closed =>
            cases read
            obtain ⟨front, shape, member⟩ := member_written values first colon second closed
            exact ⟨front, shape, .last member⟩
        · next others continued =>
            obtain ⟨⟨found, _⟩, third, read⟩ := Option.bind_eq_some_iff.mp read
            cases read
            obtain ⟨front, spelled, member⟩ := member_written values first colon second continued
            obtain ⟨blanks, blank, shape⟩ := blank_skipped others
            obtain ⟨further, written, listed⟩ := members _ _ _ third
            refine ⟨front ++ ',' :: (blanks ++ further), ?_,
              .more member (listed.blank_append blank)⟩
            rw [spelled, shape, written]
            simp
        · cases read
    · cases read
  · cases read

theorem writes_read (fuel : Nat) : WritesValues fuel ∧ WritesItems fuel ∧ WritesMembers fuel := by
  induction fuel with
  | zero => exact ⟨nofun, nofun, nofun⟩
  | succ fuel ih =>
      obtain ⟨values, items, members⟩ := ih
      exact ⟨writes_values items members, writes_items values items, writes_members values members⟩

end Soundness

/-- A text is read exactly as the value that it writes. -/
theorem of_text_iff (text : Text) (json : Json) :
    ofText? text = some json ↔ Document text json := by
  constructor
  · intro read
    unfold ofText? at read
    split at read
    · next value rest found =>
        by_cases finished : skip rest = []
        · obtain ⟨blanks, blank, shape⟩ := blank_skipped text
          obtain ⟨front, written, document⟩ :=
            document_written (writes_read _).1 found finished
          cases (if_pos finished).symm.trans read
          rw [shape, written, List.append_nil]
          exact document.blank_append blank
        · cases (if_neg finished).symm.trans read
    · cases read
  · intro document
    obtain ⟨back, blank, read⟩ := document_read (reads_written (2 * text.length + 2)).1 document
      (by omega) (nofun : Ends [])
    rw [List.append_nil, List.append_nil] at read
    rw [ofText?, read]
    exact if_pos (skip_all blank)

end RemoteBoot.Json
