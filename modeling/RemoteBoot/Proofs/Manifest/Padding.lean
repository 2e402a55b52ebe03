import RemoteBoot.Proofs.Manifest.IdleLines
import RemoteBoot.Proofs.Text.Decoding

/-!
# Padding the files of a manifest

With a line that asks for nothing put into any of the files a manifest parses to the same entries or
to the same fault.  Only where a file is no text does the fault count what was put in front of the
place that it tells.
-/

set_option autoImplicit false

namespace RemoteBoot.Manifest

section Files

/-- A physical line begins behind this part of a file, and it does not continue the line before. -/
def BeginsLine (front : Bytes) : Prop :=
  front = [] ∨ ∃ before, front = before ++ [0x0a] ∧ before.getLast? ≠ some 0x5c ∧
    ¬ [0x5c, 0x0d] <:+ before

theorem begins_of_decoded {front : Bytes} {text : Text} (begins : BeginsLine front)
    (decoded : Utf8.decode front = .ok text) : Begins text := by
  have bytes := Utf8.encode_of_decoded decoded
  rcases begins with rfl | ⟨before, rfl, closed, closedToo⟩
  · rw [Utf8.decode, Utf8.decodeFrom] at decoded
    cases decoded
    exact Or.inl rfl
  · obtain ⟨kept, rfl, rfl⟩ := Utf8.last_of_encode bytes (by decide)
    refine Or.inr ⟨kept, rfl, ?_, ?_⟩
    · intro last
      obtain ⟨further, rfl⟩ := List.getLast?_eq_some_iff.mp last
      apply closed
      rw [Utf8.encode_append]
      exact List.getLast?_concat
    · rintro ⟨further, rfl⟩
      apply closedToo
      rw [Utf8.encode_append]
      exact List.suffix_append _ _

/-- The bytes of a line with its end. -/
def lineBytes (line : Text) : Bytes :=
  Utf8.encode (line ++ ['\n'])

/-- A file as it was, or with a line that asks for nothing in front of one of its lines. -/
inductive Padded : Except ReadFailure Bytes → Except ReadFailure Bytes → Prop where
  | same (contents : Except ReadFailure Bytes) : Padded contents contents
  | inserted {front back : Bytes} {line : Text} (begins : BeginsLine front) (idle : Idle line) :
      Padded (.ok (front ++ back)) (.ok (front ++ (lineBytes line ++ back)))

/-- Where a defect of a file is found in the padded file: it moves with what is behind the line. -/
inductive Moves : Except ReadFailure Bytes → Except ReadFailure Bytes → Utf8.Defect → Utf8.Defect →
    Prop where
  | same (contents : Except ReadFailure Bytes) (defect : Utf8.Defect) :
      Moves contents contents defect defect
  | ahead {front back : Bytes} {line : Text} {defect : Utf8.Defect}
      (broken : Utf8.decode front = .error defect) :
      Moves (.ok (front ++ back)) (.ok (front ++ (lineBytes line ++ back))) defect defect
  | behind {front back : Bytes} {line text : Text} {defect : Utf8.Defect}
      (sound : Utf8.decode front = .ok text) :
      Moves (.ok (front ++ back)) (.ok (front ++ (lineBytes line ++ back))) defect
        (defect.later (lineBytes line).length)

/-- Two texts that come to the same wherever they are gathered. -/
def SameDeeds (text textThen : Text) : Prop :=
  ∀ splice file root, gather splice (contributions file root (lines textThen)) =
    gather splice (contributions file root (lines text))

/-- What reading a file gives, and what reading the padded file gives. -/
inductive SameReading (contents contentsThen : Except ReadFailure Bytes) :
    Except ReadFailure Text → Except ReadFailure Text → Prop where
  | text {text textThen : Text} (same : SameDeeds text textThen) :
      SameReading contents contentsThen (.ok text) (.ok textThen)
  | failed {failure : ReadFailure} (readable : ∀ defect, failure ≠ .notText defect) :
      SameReading contents contentsThen (.error failure) (.error failure)
  | defect {defect defectThen : Utf8.Defect} (moves : Moves contents contentsThen defect defectThen) :
      SameReading contents contentsThen (.error (.notText defect)) (.error (.notText defectThen))

/-- Bytes as a file that is read for its text. -/
def textOf (contents : Except ReadFailure Bytes) : Except ReadFailure Text :=
  contents.bind fun bytes => (Utf8.decode bytes).mapError .notText

theorem read_text_eq (source : FileSource) (file : Path) :
    source.readText file = textOf (source.read file) := by
  rw [FileSource.readText, textOf]
  cases source.read file with
  | error failure => rfl
  | ok bytes =>
      simp only [Except.bind]
      cases Utf8.decode bytes <;> rfl

/-- Lines that ask for nothing do nothing. -/
theorem same_deeds_of_insert {front line : Text} (begins : Begins front) (idle : Idle line)
    (back : Text) : SameDeeds (front ++ back) (front ++ (line ++ '\n' :: back)) := by
  intro splice file root
  obtain ⟨above, plain, padded⟩ := lines_insert begins idle back
  rw [plain, padded]
  exact gather_insert splice idle file root above (lines back)

theorem same_reading_of_inserted {front back : Bytes} {line : Text} (begins : BeginsLine front)
    (idle : Idle line) :
    SameReading (.ok (front ++ back)) (.ok (front ++ (lineBytes line ++ back)))
      (textOf (.ok (front ++ back))) (textOf (.ok (front ++ (lineBytes line ++ back)))) := by
  simp only [textOf, Except.bind]
  cases decoded : Utf8.decode front with
  | error defect =>
      -- The front ends with a line end, so its defect does not come of what is behind.
      have found (more : Bytes) : Utf8.decode (front ++ more) = .error defect := by
        rcases begins with rfl | ⟨before, rfl, _⟩
        · rw [Utf8.decode, Utf8.decodeFrom] at decoded
          cases decoded
        · exact Utf8.decode_from_broken decoded List.getLast?_concat (by decide) more
      rw [found, found]
      exact .defect (.ahead decoded)
  | ok text =>
      have bytes : Utf8.encode text = front := Utf8.encode_of_decoded decoded
      have plain := Utf8.decode_from_encode_append text 0 back
      have padded := Utf8.decode_from_encode_append (text ++ (line ++ ['\n'])) 0 back
      rw [Utf8.encode_append, List.length_append, ← Nat.add_assoc, Utf8.decode_from_later, bytes,
        List.append_assoc] at padded
      rw [bytes] at plain
      rw [Utf8.decode, Utf8.decode, lineBytes, plain, padded]
      cases Utf8.decodeFrom (0 + front.length) back with
      | error defect => exact .defect (.behind decoded)
      | ok others =>
          have same := same_deeds_of_insert (begins_of_decoded begins decoded) idle others
          refine .text ?_
          simpa only [List.append_assoc, List.singleton_append] using same

theorem same_reading_of_padded {contents contentsThen : Except ReadFailure Bytes}
    (padded : Padded contents contentsThen) :
    SameReading contents contentsThen (textOf contents) (textOf contentsThen) := by
  cases padded with
  | inserted begins idle => exact same_reading_of_inserted begins idle
  | same =>
      cases contents with
      | error failure =>
          cases failure with
          | notText defect => exact .defect (.same _ defect)
          | missing path => exact .failed fun defect same => by cases same
          | refused reason => exact .failed fun defect same => by cases same
      | ok bytes =>
          simp only [textOf, Except.bind]
          cases Utf8.decode bytes with
          | error defect => exact .defect (.same _ defect)
          | ok text => exact .text fun _ _ _ => rfl

end Files

section Sources

variable {source other : FileSource}

/-- The files of one source, any of which may be padded with a line that asks for nothing. -/
def SameButPadding (source other : FileSource) : Prop :=
  ∀ file, Padded (source.read file) (other.read file)

/-- A manifest whose file is no text. -/
def notText (file : Path) (defect : Utf8.Defect) : Except Stop (List Entry) :=
  .error (.fault (.manifest file (.unreadable (.notText defect))))

/-- What comes of a manifest, and what comes of it with the padded files. -/
inductive SameOutcome (source other : FileSource) :
    Except Stop (List Entry) → Except Stop (List Entry) → Prop where
  | same {result : Except Stop (List Entry)} (readable : ∀ file defect, result ≠ notText file defect) :
      SameOutcome source other result result
  | moved {file : Path} {defect defectThen : Utf8.Defect}
      (moves : Moves (source.read file) (other.read file) defect defectThen) :
      SameOutcome source other (notText file defect) (notText file defectThen)

theorem SameOutcome.bind {first firstThen : Except Stop (List Entry)}
    {next nextThen : List Entry → Except Stop (List Entry)} (begins : SameOutcome source other first firstThen)
    (rest : ∀ own, SameOutcome source other (next own) (nextThen own)) :
    SameOutcome source other (first.bind next) (firstThen.bind nextThen) := by
  cases begins with
  | moved moves => exact .moved moves
  | same readable =>
      cases first with
      | error stop => exact .same readable
      | ok own => exact rest own

theorem SameOutcome.map {rest restThen : Except Stop (List Entry)}
    (same : SameOutcome source other rest restThen) (own : List Entry) :
    SameOutcome source other (rest.map fun others => own ++ others)
      (restThen.map fun others => own ++ others) := by
  cases same with
  | moved moves => exact .moved moves
  | same readable =>
      cases rest with
      | error stop => exact .same readable
      | ok others => exact .same fun file defect made => by cases made

theorem same_outcome_of_ok (entries : List Entry) : SameOutcome source other (.ok entries) (.ok entries) :=
  .same fun _ _ made => by cases made

theorem same_outcome_of_steps {splice spliceThen : Reference → Except Stop (List Entry)}
    (spliced : ∀ reference, SameOutcome source other (splice reference) (spliceThen reference))
    (file root : Path) (line : Line) :
    SameOutcome source other ((line.contribution file root).steps splice)
      ((line.contribution file root).steps spliceThen) := by
  cases line with
  | splice name => exact spliced ⟨name, root⟩
  | address text =>
      simp only [Line.contribution]
      cases Numeral.address? text with
      | some start => exact same_outcome_of_ok [.address start]
      | none => exact .same fun _ _ made => by cases made
  | module name commandLine => exact same_outcome_of_ok [.load (root.join name) commandLine]
  | _ => exact same_outcome_of_ok []

theorem same_outcome_of_gathered {splice spliceThen : Reference → Except Stop (List Entry)}
    (spliced : ∀ reference, SameOutcome source other (splice reference) (spliceThen reference))
    (file root : Path) (lines : List Line) :
    SameOutcome source other (gather splice (contributions file root lines))
      (gather spliceThen (contributions file root lines)) := by
  induction lines generalizing root with
  | nil => exact same_outcome_of_ok []
  | cons line lines ih =>
      rw [contributions, gather, gather]
      apply (same_outcome_of_steps spliced file root line).bind
      exact fun own => (ih (line.rebase root)).map own

theorem expand_of_padding (padded : SameButPadding source other) (chain : List Path)
    (reference : Reference) :
    SameOutcome source other (reference.expand source chain) (reference.expand other chain) := by
  induction chain using chain_induction source generalizing reference with
  | down chain ih =>
      rw [expand_eq, expand_eq, Reference.enter, Reference.enter]
      by_cases onChain : reference.file ∈ chain
      · rw [if_pos onChain, if_pos onChain]
        exact .same fun _ _ made => by cases made
      · rw [if_neg onChain, if_neg onChain]
        have read := read_text_eq source reference.file
        have readThen := read_text_eq other reference.file
        have same := same_reading_of_padded (padded reference.file)
        rw [← read, ← readThen] at same
        generalize given : source.readText reference.file = reading at same
        generalize givenThen : other.readText reference.file = readingThen at same
        cases same with
        | failed readable =>
            refine .same fun file defect made => ?_
            cases made
            exact readable defect rfl
        | defect moves => exact .moved moves
        | text deeds =>
            simp only
            rw [deeds]
            apply same_outcome_of_gathered
            exact ih reference _ (enter_ok.mpr ⟨onChain, given⟩)

/-- With a line that asks for nothing put into any of its files, a manifest parses to the same entries
or the same fault; of a file that is no text the fault tells a place, which moves with what is put in
front of it.  Every module comes from a line that the traversal arrives at when it has found the
entries in front of the module: it has the command line of that line, and its file is the first word
below the root in effect there. -/
theorem idle_lines_do_nothing (padded : SameButPadding source other) (name root : Path) :
    let result := (parse source name root).result
    let resultThen := (parse other name root).result
    ((∀ file defect, result ≠ notText file defect) → resultThen = result) ∧
    (∀ file defect, result = notText file defect → ∃ defectThen,
      Moves (source.read file) (other.read file) defect defectThen ∧
        resultThen = notText file defectThen) ∧
    ∀ entries, result = .ok entries → ∀ (position : Nat) (file : Path) (commandLine : Text),
      entries[position]? = some (.load file commandLine) →
        IsCommandLine commandLine ∧ ∃ current within rest outer,
          let frames :=
            ⟨current, within, .module ⟨Blank.firstWord commandLine⟩ commandLine :: rest⟩ :: outer
          Reached source ⟨name, root⟩ ⟨frames, entries.take position⟩ ∧ Rooted source root frames ∧
            file = within.join ⟨Blank.firstWord commandLine⟩ := by
  intro result resultThen
  have same : SameOutcome source other result resultThen := expand_of_padding padded [] ⟨name, root⟩
  refine ⟨?_, ?_, fun entries parsed position file commandLine => module_of_parsed parsed⟩
  · intro readable
    generalize result = before at same readable
    generalize resultThen = after at same
    cases same with
    | same => rfl
    | moved moves => exact absurd rfl (readable _ _)
  · intro file defect broken
    generalize result = before at same broken
    generalize resultThen = after at same
    cases same with
    | same readable => exact absurd broken (readable _ _)
    | moved moves =>
        cases broken
        exact ⟨_, moves, rfl⟩

end Sources

/-- A line for other readers in front of a root, and a module without a file at the beginning of an
included manifest. -/
theorem padded_texts_parse_alike :
    let plain := including "conf b.conf\nroot /srv\nload k one\n" "addr 20\n"
    let padded := including "conf b.conf\ntitle Nova\nroot /srv\nload k one\n" "load # k\naddr 20\n"
    SameButPadding plain padded ∧
      (parse padded (.ofString "a.conf") (.ofString "/boot")).result =
        .ok [.address 0x20, .load (.ofString "/srv/k") "k one".toList] ∧
      IsCommandLine "k one".toList := by
  intro plain padded
  have title : Idle "title Nova".toList :=
    ⟨by decide, by decide, by decide, Or.inr (Or.inl (by decide))⟩
  have fileless : Idle "load # k".toList :=
    ⟨by decide, by decide, by decide, Or.inr (Or.inr (Or.inl (by decide)))⟩
  have begins : BeginsLine (Utf8.encode "conf b.conf\n".toList) :=
    Or.inr ⟨Utf8.encode "conf b.conf".toList, by decide, by decide, by decide⟩
  have outer : Padded
      (.ok (Utf8.encode "conf b.conf\n".toList ++ Utf8.encode "root /srv\nload k one\n".toList))
      (.ok (Utf8.encode "conf b.conf\n".toList ++
        (lineBytes "title Nova".toList ++ Utf8.encode "root /srv\nload k one\n".toList))) :=
    .inserted begins title
  have inner : Padded (.ok (Utf8.encode "addr 20\n".toList))
      (.ok (Utf8.encode "load # k\naddr 20\n".toList)) :=
    .inserted (Or.inl rfl) fileless
  have alike : SameButPadding plain padded :=
    read_of_alike Padded.same (.cons ⟨rfl, outer⟩ (.cons ⟨rfl, inner⟩ .nil))
  have parsed : (parse plain (.ofString "a.conf") (.ofString "/boot")).result =
      .ok [.address 0x20, .load (.ofString "/srv/k") "k one".toList] :=
    ok_of_to_option (by decide +kernel)
  have readable : ∀ file defect,
      (parse plain (.ofString "a.conf") (.ofString "/boot")).result ≠ notText file defect := by
    intro file defect broken
    rw [parsed] at broken
    cases broken
  obtain ⟨same, _, modules⟩ :=
    idle_lines_do_nothing alike (.ofString "a.conf") (.ofString "/boot")
  exact ⟨alike, (same readable).trans parsed, (modules _ parsed 1 _ _ rfl).1⟩

def holding (contents : Bytes) : FileSource :=
  (MemoryFiles.mk [(.ofString "/boot/a.conf", contents)]).source

/-- A comment in front of a byte that is no text moves the byte, and the fault tells its place. -/
theorem idle_lines_not_always_invisible :
    ¬ ∀ source other : FileSource, SameButPadding source other →
      ∀ name root, (parse other name root).result = (parse source name root).result := by
  intro always
  have comment : Idle "# c".toList := ⟨by decide, by decide, by decide, Or.inl (by decide)⟩
  have padded : Padded (.ok [0xff]) (.ok (lineBytes "# c".toList ++ [0xff])) :=
    .inserted (Or.inl rfl) comment
  have alike : SameButPadding (holding [0xff]) (holding (lineBytes "# c".toList ++ [0xff])) :=
    read_of_alike Padded.same (.cons ⟨rfl, padded⟩ .nil)
  have first : (parse (holding [0xff]) (.ofString "a.conf") (.ofString "/boot")).result =
      notText (.ofString "/boot/a.conf") (.invalid 1 0) := error_of_fault (by decide +kernel)
  have moved : (parse (holding (lineBytes "# c".toList ++ [0xff])) (.ofString "a.conf")
      (.ofString "/boot")).result = notText (.ofString "/boot/a.conf") (.invalid 1 4) :=
    error_of_fault (by decide +kernel)
  have same := always _ _ alike (.ofString "a.conf") (.ofString "/boot")
  rw [first, moved] at same
  cases same

end RemoteBoot.Manifest
