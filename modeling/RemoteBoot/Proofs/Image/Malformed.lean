import RemoteBoot.Image.Writer
import RemoteBoot.Proofs.Image.NameSearch
import RemoteBoot.Proofs.Image.Windows
import RemoteBoot.Proofs.Remote.Crashes

/-!
# Images that crash their reader

The reader relies on tables that a file only claims to have.  `Breaks` lists the ways in which a
file can break such a claim: a header that cannot be read, contents that a section does not have,
a name that is no text.  Each of them crashes the reader, unless a segment that the file cannot fill
is found first, and nothing else does; every other file is an image or is refused.
-/

set_option autoImplicit false

namespace RemoteBoot.Image

variable {α β : Type}

section Segments

/-- The program header can be read, and a part to be loaded is in the file and has room. -/
structure Passes (file : Bytes) (header : FileHeader) (index : Nat) : Prop where
  readable : ProgramHeader.Readable file header index
  filled : (ProgramHeader.ofIndex file header index).kind = ProgramHeader.loadKind →
    (ProgramHeader.ofIndex file header index).offset + (ProgramHeader.ofIndex file header index).fileSize ≤
        file.length ∧
      (ProgramHeader.ofIndex file header index).fileSize ≤
        (ProgramHeader.ofIndex file header index).memorySize

variable (name : String) (file : Bytes) (header : FileHeader)

theorem load_segment_cases (program : ProgramHeader) :
    (∃ segment, program.offset + program.fileSize ≤ file.length ∧
        program.fileSize ≤ program.memorySize ∧ loadSegment name file program = .ok segment) ∨
      ∃ reason, ¬ (program.offset + program.fileSize ≤ file.length ∧
        program.fileSize ≤ program.memorySize) ∧
        loadSegment name file program = rejected name reason := by
  unfold loadSegment
  split
  · next short => exact Or.inr ⟨_, fun filled => Nat.not_lt.mpr filled.1 short, rfl⟩
  · next inFile =>
      split
      · next small => exact Or.inr ⟨_, fun filled => Nat.not_lt.mpr filled.2 small, rfl⟩
      · next room => exact Or.inl ⟨_, Nat.not_lt.mp inFile, Nat.not_lt.mp room, rfl⟩

/-- One step through the program headers: the first one crashes, passes or is refused. -/
theorem segments_at_cons (index : Nat) (indices : List Nat) :
    (¬ ProgramHeader.Readable file header index ∧
        Crashed (segmentsAt name file header (index :: indices))) ∨
    (Passes file header index ∧
      (Crashed (segmentsAt name file header (index :: indices)) ↔
        Crashed (segmentsAt name file header indices)) ∧
      ((∃ segments, segmentsAt name file header (index :: indices) = .ok segments) ↔
        ∃ segments, segmentsAt name file header indices = .ok segments)) ∨
    (ProgramHeader.Readable file header index ∧ ¬ Passes file header index ∧
      ∃ reason, segmentsAt name file header (index :: indices) = rejected name reason) := by
  rw [segmentsAt, ProgramHeader.read_eq]
  by_cases readable : ProgramHeader.Readable file header index
  · simp only [relying, if_pos readable, bind, Except.bind]
    by_cases kind : (ProgramHeader.ofIndex file header index).kind = ProgramHeader.loadKind
    · rw [if_pos kind]
      rcases load_segment_cases name file (ProgramHeader.ofIndex file header index) with
        ⟨segment, inFile, room, loaded⟩ | ⟨reason, unfilled, refused⟩
      · refine Or.inr (Or.inl ⟨⟨readable, fun _ => ⟨inFile, room⟩⟩, ?_, ?_⟩)
        all_goals
          rw [loaded]
          cases segmentsAt name file header indices <;>
            simp [Crashed, pure, Except.pure]
      · rw [refused]
        exact Or.inr (Or.inr ⟨readable, fun passes => unfilled (passes.filled kind), reason, rfl⟩)
    · rw [if_neg kind]
      exact Or.inr (Or.inl ⟨⟨readable, fun load => absurd load kind⟩, Iff.rfl, Iff.rfl⟩)
  · simp only [relying, if_neg readable, bind, Except.bind]
    exact Or.inl ⟨readable, _, rfl⟩

/-- The segments can be read exactly if all program headers pass, and reading them crashes at the
first that cannot be read if all in front of it pass. -/
theorem segments_at_iff (indices : List Nat) :
    ((∃ segments, segmentsAt name file header indices = .ok segments) ↔
      ∀ index ∈ indices, Passes file header index) ∧
    (Crashed (segmentsAt name file header indices) ↔
      ∃ place index : Nat, indices[place]? = some index ∧ ¬ ProgramHeader.Readable file header index ∧
        ∀ before < place, ∀ earlier : Nat, indices[before]? = some earlier →
          Passes file header earlier) := by
  induction indices with
  | nil =>
      refine ⟨iff_of_true ⟨[], rfl⟩ (by simp), iff_of_false (not_crashed_ok []) ?_⟩
      rintro ⟨place, index, listed, _⟩
      cases listed
  | cons index indices ih =>
      rcases segments_at_cons name file header index indices with
        ⟨unreadable, crashed⟩ | ⟨passes, crashes, reads⟩ | ⟨readable, fails, reason, refused⟩
      · refine ⟨iff_of_false ?_ ?_, iff_of_true crashed ⟨0, index, rfl, unreadable, ?_⟩⟩
        · rintro ⟨segments, read⟩
          rw [read] at crashed
          exact not_crashed_ok _ crashed
        · exact fun all => unreadable (all index List.mem_cons_self).readable
        · exact fun before nothing => absurd nothing (Nat.not_lt_zero before)
      · rw [reads, crashes, ih.1, ih.2, List.forall_mem_cons]
        refine ⟨⟨fun all => ⟨passes, all⟩, And.right⟩, ⟨?_, ?_⟩⟩
        · rintro ⟨place, bad, listed, unreadable, front⟩
          refine ⟨place + 1, bad, listed, unreadable, ?_⟩
          intro before less earlier found
          cases before with
          | zero =>
              cases found
              exact passes
          | succ before => exact front before (Nat.lt_of_succ_lt_succ less) earlier found
        · rintro ⟨place, bad, listed, unreadable, front⟩
          cases place with
          | zero =>
              cases listed
              exact absurd passes.readable unreadable
          | succ place =>
              exact ⟨place, bad, listed, unreadable, fun before less earlier found =>
                front (before + 1) (Nat.succ_lt_succ less) earlier found⟩
      · refine ⟨iff_of_false ?_ ?_, iff_of_false ?_ ?_⟩
        · rintro ⟨segments, read⟩
          rw [refused] at read
          cases read
        · exact fun all => fails (all index List.mem_cons_self)
        · rw [refused]
          exact not_crashed_rejected name reason
        · rintro ⟨place, bad, listed, unreadable, front⟩
          cases place with
          | zero =>
              cases listed
              exact unreadable readable
          | succ place => exact fails (front 0 (Nat.succ_pos place) index rfl)

end Segments

section Files

variable (file : Bytes) (header : FileHeader)

/-- The section headers of a file that can all be read. -/
def sectionsOf : List SectionHeader :=
  (List.range header.sectionCount).map (SectionHeader.ofIndex file header)

/-- A file with this header claims what it does not have.  In each case everything that is read
before is in order. -/
inductive Breaks : Prop where
  | program (index : Nat) (listed : index < ProgramHeader.count header)
      (front : ∀ earlier < index, Passes file header earlier)
      (unreadable : ¬ ProgramHeader.Readable file header index)
  | section_ (programs : ∀ index < ProgramHeader.count header, Passes file header index)
      (index : Nat) (listed : index < header.sectionCount)
      (unreadable : ¬ SectionHeader.Readable file header index)
  | contents (programs : ∀ index < ProgramHeader.count header, Passes file header index)
      (sections : ∀ index < header.sectionCount, SectionHeader.Readable file header index)
      (section_ : SectionHeader) (member : section_ ∈ sectionsOf file header)
      (unsound : ¬ section_.Sound file header.format)
  | name (programs : ∀ index < ProgramHeader.count header, Passes file header index)
      (sections : ∀ index < header.sectionCount, SectionHeader.Readable file header index)
      (sound : ∀ section_ ∈ sectionsOf file header, section_.Sound file header.format)
      (some : definedSymbols file header (sectionsOf file header) ≠ [])
      (name : NameBreaks file header (sectionsOf file header))

variable {file header}

theorem segments_of_file (file : Bytes) (header : FileHeader) (name : String) :
    ((∃ segments, segmentsAt name file header (List.range (ProgramHeader.count header)) =
        .ok segments) ↔ ∀ index < ProgramHeader.count header, Passes file header index) ∧
    (Crashed (segmentsAt name file header (List.range (ProgramHeader.count header))) ↔
      ∃ index < ProgramHeader.count header, ¬ ProgramHeader.Readable file header index ∧
        ∀ earlier < index, Passes file header earlier) := by
  obtain ⟨reads, crashes⟩ := segments_at_iff name file header
    (List.range (ProgramHeader.count header))
  simp only [List.mem_range] at reads
  refine ⟨reads, crashes.trans ⟨?_, ?_⟩⟩
  · rintro ⟨place, index, listed, unreadable, front⟩
    obtain ⟨within, rfl⟩ : place < ProgramHeader.count header ∧ place = index := by
      simpa only [List.getElem?_eq_some_iff, List.length_range, List.getElem_range,
        exists_prop] using listed
    exact ⟨place, within, unreadable, fun earlier less =>
      front earlier less earlier (List.getElem?_range (Nat.lt_trans less within))⟩
  · rintro ⟨index, within, unreadable, front⟩
    refine ⟨index, index, List.getElem?_range within, unreadable, ?_⟩
    intro before less earlier listed
    rw [List.getElem?_range (Nat.lt_trans less within)] at listed
    cases listed
    exact front before less

/-- The section headers are read all or not at all. -/
theorem sections_of_file (file : Bytes) (header : FileHeader) :
    (∀ sections, (List.range header.sectionCount).mapM (SectionHeader.read file header) =
        .ok sections ↔ (∀ index < header.sectionCount, SectionHeader.Readable file header index) ∧
          sectionsOf file header = sections) ∧
    (Crashed ((List.range header.sectionCount).mapM (SectionHeader.read file header)) ↔
      ∃ index < header.sectionCount, ¬ SectionHeader.Readable file header index) := by
  rw [map_m_relying (SectionHeader.read_eq file header), crashed_relying]
  simp only [relying_ok, List.mem_range, Classical.not_forall, exists_prop, sectionsOf, implies_true,
    and_self]

/-- Behind the segments only the section headers and the symbols can crash. -/
theorem crashed_behind_segments {finish : List (Text × Nat) → Except Stop Image}
    (calm : ∀ symbols, ¬ Crashed (finish symbols)) :
    Crashed (do
        let sections ← (List.range header.sectionCount).mapM (SectionHeader.read file header)
        let symbols ← symbolsOf file header sections
        finish symbols) ↔
      (∃ index < header.sectionCount, ¬ SectionHeader.Readable file header index) ∨
      (∀ index < header.sectionCount, SectionHeader.Readable file header index) ∧
        Crashed (symbolsOf file header (sectionsOf file header)) := by
  obtain ⟨gives, crashes⟩ := sections_of_file file header
  rw [crashed_bind, crashes]
  simp only [gives, crashed_bind, calm, and_false, exists_false, or_false, and_assoc,
    exists_and_left, exists_eq_left']

/-- Reading a file crashes exactly if the file breaks what its header claims. -/
theorem crashed_read (name : String) :
    Crashed (read name file) ↔
      ∃ header, FileHeader.ofFile file = .ok header ∧ Breaks file header := by
  rw [read]
  cases opened : FileHeader.ofFile file with
  | error reason =>
      refine iff_of_false (not_crashed_rejected name reason) ?_
      rintro ⟨header, read, _⟩
      cases read
  | ok header =>
      simp only [Except.ok.injEq, exists_eq_left']
      obtain ⟨reads, crashes⟩ := segments_of_file file header name
      have behind := fun segments : List Segment =>
        @crashed_behind_segments file header
          (fun symbols => if segments.isEmpty then rejected name "no PT_LOAD segments"
            else pure ⟨name, file, header.entry, segments, symbols⟩) fun symbols => by
              split
              · exact not_crashed_rejected name _
              · exact not_crashed_ok _
      rw [crashed_bind, crashes]
      constructor
      · rintro (⟨index, listed, unreadable, front⟩ | ⟨segments, passed, crashed⟩)
        · exact .program index listed front unreadable
        · have programs := reads.mp ⟨segments, passed⟩
          rcases (behind segments).mp crashed with ⟨index, listed, unreadable⟩ | ⟨sections, crashed⟩
          · exact .section_ programs index listed unreadable
          · rcases crashed_symbols_of.mp crashed with
              ⟨section_, member, unsound⟩ | ⟨sound, some, name⟩
            · exact .contents programs sections section_ member unsound
            · exact .name programs sections sound some name
      · intro breaks
        cases breaks with
        | program index listed front unreadable => exact Or.inl ⟨index, listed, unreadable, front⟩
        | section_ programs index listed unreadable =>
            obtain ⟨segments, passed⟩ := reads.mpr programs
            exact Or.inr ⟨segments, passed,
              (behind segments).mpr (Or.inl ⟨index, listed, unreadable⟩)⟩
        | contents programs sections section_ member unsound =>
            obtain ⟨segments, passed⟩ := reads.mpr programs
            have crashed := crashed_symbols_of.mpr (Or.inl ⟨section_, member, unsound⟩)
            exact Or.inr ⟨segments, passed, (behind segments).mpr (Or.inr ⟨sections, crashed⟩)⟩
        | name programs sections sound some name =>
            obtain ⟨segments, passed⟩ := reads.mpr programs
            have crashed := crashed_symbols_of.mpr (Or.inr ⟨sound, some, name⟩)
            exact Or.inr ⟨segments, passed, (behind segments).mpr (Or.inr ⟨sections, crashed⟩)⟩

end Files

/-- All that stops a reader are crashes at the file and refusals of it. -/
def Refuses (name : String) (result : Except Stop α) : Prop :=
  ∀ stop, result = .error stop →
    stop = .crash .brokenImage ∨ ∃ reason, stop = .fault (.binary name reason)

namespace Refuses

variable {name : String}

theorem ok (value : α) : Refuses name (.ok value : Except Stop α) := by
  intro stop stopped
  cases stopped

theorem rejected (reason : String) : Refuses name (rejected name reason : Except Stop α) := by
  intro stop stopped
  cases stopped
  exact Or.inr ⟨reason, rfl⟩

theorem broken : Refuses name (.error (.crash .brokenImage) : Except Stop α) := by
  intro stop stopped
  cases stopped
  exact Or.inl rfl

theorem relying (condition : Prop) [Decidable condition] (value : α) :
    Refuses name (relying condition value) := by
  unfold Image.relying
  split
  · exact ok value
  · exact broken

theorem bind {first : Except Stop α} {next : α → Except Stop β} (begins : Refuses name first)
    (rest : ∀ value, Refuses name (next value)) : Refuses name (first >>= next) := by
  cases first with
  | ok value => exact rest value
  | error other =>
      intro stop stopped
      cases stopped
      exact begins other rfl

theorem load_segment (file : Bytes) (program : ProgramHeader) :
    Refuses name (loadSegment name file program) := by
  rcases load_segment_cases name file program with ⟨segment, _, _, loaded⟩ | ⟨reason, _, refused⟩
  · rw [loaded]
    exact ok segment
  · rw [refused]
    exact rejected reason

theorem segments_at (file : Bytes) (header : FileHeader) (indices : List Nat) :
    Refuses name (segmentsAt name file header indices) := by
  induction indices with
  | nil => exact ok []
  | cons index indices ih =>
      rw [segmentsAt, ProgramHeader.read_eq]
      apply (relying _ _).bind
      intro program
      split
      · apply (load_segment file program).bind
        intro segment
        apply ih.bind
        intro others
        exact ok _
      · exact ih

theorem terminated_text (bytes : Bytes) : Refuses name (terminatedText bytes) := by
  unfold terminatedText
  split
  · split
    · exact ok _
    · exact broken
  · exact broken

theorem find_section (file : Bytes) (names : Nat) (wanted : Text) (sections : List SectionHeader) :
    Refuses name (findSection file names wanted sections) := by
  induction sections with
  | nil => exact ok none
  | cons section_ sections ih =>
      rw [findSection]
      split
      · exact ih
      · apply (terminated_text _).bind
        intro text
        split
        · exact ok _
        · exact ih

theorem symbol_names (file : Bytes) (header : FileHeader) (sections : List SectionHeader) :
    Refuses name (symbolNames file header sections) := by
  rw [symbolNames, SectionHeader.read_eq]
  apply (relying _ _).bind
  intro names
  apply (find_section file names.offset _ sections).bind
  intro found
  cases found with
  | none => exact ok none
  | some section_ =>
      change Refuses name (if section_.kind = SectionHeader.stringKind then
        SectionHeader.contents file section_ >>= fun contents => pure (some contents) else pure none)
      split
      · rw [SectionHeader.contents_eq]
        exact (relying _ _).bind fun contents => ok _
      · exact ok none

theorem name_symbols (names : Bytes) (symbols : List SymbolEntry) :
    Refuses name (nameSymbols names symbols) := by
  induction symbols with
  | nil => exact ok []
  | cons symbol symbols ih =>
      rw [nameSymbols]
      apply (terminated_text _).bind
      intro text
      apply ih.bind
      intro others
      exact ok _

theorem symbols_of (file : Bytes) (header : FileHeader) (sections : List SectionHeader) :
    Refuses name (symbolsOf file header sections) := by
  rw [symbolsOf, for_m_relying (SectionHeader.check_eq file header.format),
    map_m_relying (SectionHeader.contents_eq file)]
  apply (relying _ _).bind
  intro checked
  apply (relying _ _).bind
  intro tables
  dsimp only
  split
  · exact ok []
  · apply (symbol_names file header sections).bind
    intro found
    cases found with
    | none => exact ok []
    | some names => exact name_symbols names _

theorem read (file : Bytes) : Refuses name (read name file) := by
  rw [Image.read]
  cases FileHeader.ofFile file with
  | error reason => exact rejected reason
  | ok header =>
      apply (segments_at file header _).bind
      intro segments
      rw [map_m_relying (SectionHeader.read_eq file header)]
      apply (relying _ _).bind
      intro sections
      apply (symbols_of file header sections).bind
      intro symbols
      split
      · exact rejected _
      · exact ok _

end Refuses

/-- Decoding crashes exactly at files that break what their header claims; every other file is an
image or is refused as no usable binary. -/
theorem decode_crashes_iff (name : String) (file : Bytes) :
    (∀ crash, (decode name file).result = .error (.crash crash) ↔
      crash = .brokenImage ∧ ∃ header, FileHeader.ofFile file = .ok header ∧ Breaks file header) ∧
    ((¬ ∃ header, FileHeader.ofFile file = .ok header ∧ Breaks file header) →
      (∃ image, (decode name file).result = .ok image) ∨
        ∃ reason, (decode name file).result = .error (.fault (.binary name reason))) := by
  rw [result_decode, ← crashed_read name]
  refine ⟨fun crash => ⟨?_, ?_⟩, fun calm => ?_⟩
  · intro crashed
    refine ⟨?_, crash, crashed⟩
    rcases Refuses.read file _ crashed with broken | ⟨reason, refused⟩
    · cases broken
      rfl
    · cases refused
  · rintro ⟨rfl, other, crashed⟩
    rcases Refuses.read file _ crashed with broken | ⟨reason, refused⟩
    · rw [crashed, broken]
    · cases refused
  · cases decoded : read name file with
    | ok image => exact Or.inl ⟨image, rfl⟩
    | error stop =>
        rcases Refuses.read file stop decoded with rfl | ⟨reason, rfl⟩
        · exact absurd ⟨_, decoded⟩ calm
        · exact Or.inr ⟨reason, rfl⟩

/-- A file that ends behind its header, which announces a program header. -/
def cutBehindHeader : Bytes :=
  Blueprint.headerRecord 0xc0100000 1 0x100

def announced : FileHeader :=
  ⟨.wide, 0xc0100000, 64, 0x100, 56, 1, 64, 4, 3⟩

theorem cut_behind_header_crashes :
    (decode "image" cutBehindHeader).result = .error (.crash .brokenImage) ∧
      ∃ reason, (decode "image" (cutBehindHeader.take 63)).result =
        .error (.fault (.binary "image" reason)) := by
  have opened : FileHeader.ofFile cutBehindHeader = .ok announced :=
    ok_of_to_option (by decide +kernel)
  have outside : ¬ ProgramHeader.Readable cutBehindHeader announced 0 := by
    decide +kernel
  constructor
  · apply ((decode_crashes_iff "image" cutBehindHeader).1 .brokenImage).mpr
    refine ⟨rfl, announced, opened, .program 0 (by decide) ?_ outside⟩
    exact fun earlier less => absurd less (Nat.not_lt_zero earlier)
  · obtain ⟨reason, short⟩ : ∃ reason, FileHeader.ofFile (cutBehindHeader.take 63) =
        .error reason :=
      error_of_to_option (by decide +kernel)
    have ends := (decode_crashes_iff "image" (cutBehindHeader.take 63)).2 (by simp [short])
    rcases ends with ⟨image, decoded⟩ | refused
    · rw [result_decode, read, short] at decoded
      cases decoded
    · exact refused

/-- Files are not always decoded or refused. -/
theorem files_not_always_refused :
    ¬ ∀ (name : String) (file : Bytes), (∃ image, (decode name file).result = .ok image) ∨
      ∃ reason, (decode name file).result = .error (.fault (.binary name reason)) := by
  intro always
  have crashed : Crashed (decode "image" cutBehindHeader).result :=
    ⟨.brokenImage, crash_eq_some_iff.mp (by decide +kernel)⟩
  rcases always "image" cutBehindHeader with ⟨image, decoded⟩ | ⟨reason, refused⟩
  · rw [decoded] at crashed
    exact not_crashed_ok image crashed
  · rw [refused] at crashed
    exact not_crashed_rejected "image" reason crashed

end RemoteBoot.Image
