import RemoteBoot.Proofs.Image.Reliance

/-!
# Names that an image reader looks up

The names of symbols lie in the first section of a certain name, so the names of the sections in
front of it are read as well.  Every such name has to end in the file and to be text.
-/

set_option autoImplicit false

namespace RemoteBoot.Image

/-- The text that ends at the first zero of some bytes. -/
def Names (bytes : Bytes) (text : Text) : Prop :=
  0 ∈ bytes ∧ Utf8.decode (bytes.takeWhile fun byte => byte ≠ 0) = .ok text

theorem terminated_text_cases (bytes : Bytes) :
    (∃ text, Names bytes text ∧ terminatedText bytes = .ok text) ∨
      (¬ ∃ text, Names bytes text) ∧ Crashed (terminatedText bytes) := by
  rw [terminatedText]
  by_cases ended : 0 ∈ bytes
  · rw [if_pos ended]
    cases decoded : Utf8.decode (bytes.takeWhile fun byte => byte ≠ 0) with
    | ok text => exact Or.inl ⟨text, ⟨ended, decoded⟩, rfl⟩
    | error defect =>
        refine Or.inr ⟨?_, _, rfl⟩
        rintro ⟨text, _, same⟩
        rw [decoded] at same
        cases same
  · rw [if_neg ended]
    exact Or.inr ⟨fun ⟨_, names⟩ => ended names.1, _, rfl⟩

theorem names_unique {bytes : Bytes} {text other : Text} (names : Names bytes text)
    (same : Names bytes other) : text = other :=
  Except.ok.inj (names.2.symm.trans same.2)

section Names

variable (file : Bytes) (names : Nat) (wanted : Text)

/-- The search for a section of a name comes to the name of a section. -/
inductive Leads : List SectionHeader → SectionHeader → Prop where
  | here {section_ : SectionHeader} {rest : List SectionHeader}
      (named : SectionHeader.isNameless section_.kind = false) : Leads (section_ :: rest) section_
  | nameless {section_ last : SectionHeader} {rest : List SectionHeader}
      (nameless : SectionHeader.isNameless section_.kind = true) (further : Leads rest last) :
      Leads (section_ :: rest) last
  | other {section_ last : SectionHeader} {rest : List SectionHeader} {text : Text}
      (named : SectionHeader.isNameless section_.kind = false)
      (names : Names (file.drop (names + section_.name)) text) (other : text ≠ wanted)
      (further : Leads rest last) : Leads (section_ :: rest) last

variable {file names wanted}

theorem Leads.mem {sections : List SectionHeader} {last : SectionHeader}
    (leads : Leads file names wanted sections last) : last ∈ sections := by
  induction leads with
  | here named => exact List.mem_cons_self
  | nameless nameless further ih => exact List.mem_cons_of_mem _ ih
  | other named names other further ih => exact List.mem_cons_of_mem _ ih

theorem leads_cons_nameless {first last : SectionHeader} {sections : List SectionHeader}
    (nameless : SectionHeader.isNameless first.kind = true) :
    Leads file names wanted (first :: sections) last ↔ Leads file names wanted sections last := by
  refine ⟨fun leads => ?_, .nameless nameless⟩
  cases leads with
  | here named => cases nameless.symm.trans named
  | nameless _ further => exact further
  | other named _ _ _ => cases nameless.symm.trans named

theorem leads_cons_named {first last : SectionHeader} {sections : List SectionHeader}
    (named : SectionHeader.isNameless first.kind = false) :
    Leads file names wanted (first :: sections) last ↔ last = first ∨
      (∃ text, Names (file.drop (names + first.name)) text ∧ text ≠ wanted) ∧
        Leads file names wanted sections last := by
  constructor
  · intro leads
    cases leads with
    | here _ => exact Or.inl rfl
    | nameless nameless _ => cases nameless.symm.trans named
    | other _ read other further => exact Or.inr ⟨⟨_, read, other⟩, further⟩
  · rintro (rfl | ⟨⟨text, read, other⟩, further⟩)
    · exact .here named
    · exact .other named read other further

/-- The search crashes at a name that it comes to and cannot read, and finds the section of the
wanted name that it comes to. -/
theorem find_section_iff (file : Bytes) (names : Nat) (wanted : Text)
    (sections : List SectionHeader) :
    (Crashed (findSection file names wanted sections) ↔
      ∃ section_, Leads file names wanted sections section_ ∧
        ¬ ∃ text, Names (file.drop (names + section_.name)) text) ∧
    ∀ section_, findSection file names wanted sections = .ok (some section_) ↔
      Leads file names wanted sections section_ ∧
        Names (file.drop (names + section_.name)) wanted := by
  induction sections with
  | nil =>
      refine ⟨iff_of_false (not_crashed_ok none) ?_, fun section_ => iff_of_false ?_ ?_⟩
      · rintro ⟨section_, leads, _⟩
        cases leads
      · intro found
        cases found
      · rintro ⟨leads, _⟩
        cases leads
  | cons first sections ih =>
      rw [findSection]
      cases nameless : SectionHeader.isNameless first.kind with
      | true => simpa only [if_true, leads_cons_nameless nameless] using ih
      | false =>
          simp only [Bool.false_eq_true, if_false, leads_cons_named nameless]
          rcases terminated_text_cases (file.drop (names + first.name)) with
            ⟨text, named, read⟩ | ⟨unnamed, crash, crashed⟩
          · simp only [read, bind, Except.bind]
            by_cases same : text = wanted
            · -- The search ends here, with the first section.
              subst same
              have stays : ¬ ∃ other, Names (file.drop (names + first.name)) other ∧ other ≠ text :=
                fun ⟨other, also, differs⟩ => differs (names_unique also named)
              simp only [if_true, stays, false_and, or_false, exists_eq_left]
              refine ⟨iff_of_false (not_crashed_ok _) fun unnamed => unnamed ⟨text, named⟩, ?_⟩
              intro section_
              constructor
              · intro found
                cases found
                exact ⟨rfl, named⟩
              · rintro ⟨rfl, _⟩
                rfl
            · -- The search goes on behind another name.
              have goes : ∃ other, Names (file.drop (names + first.name)) other ∧ other ≠ wanted :=
                ⟨text, named, same⟩
              simp only [if_neg same, goes, true_and, ih]
              constructor
              · constructor
                · rintro ⟨section_, leads, unnamed⟩
                  exact ⟨section_, Or.inr leads, unnamed⟩
                · rintro ⟨section_, rfl | leads, unnamed⟩
                  · exact absurd ⟨text, named⟩ unnamed
                  · exact ⟨section_, leads, unnamed⟩
              · intro section_
                constructor
                · rintro ⟨leads, wants⟩
                  exact ⟨Or.inr leads, wants⟩
                · rintro ⟨rfl | leads, wants⟩
                  · exact absurd (names_unique named wants) same
                  · exact ⟨leads, wants⟩
          · simp only [crashed, bind, Except.bind]
            refine ⟨iff_of_true ⟨crash, rfl⟩ ⟨first, Or.inl rfl, unnamed⟩, fun section_ => ?_⟩
            refine iff_of_false (fun found => by cases found) ?_
            rintro ⟨rfl | ⟨⟨text, named, _⟩, _⟩, wants⟩
            · exact unnamed ⟨wanted, wants⟩
            · exact unnamed ⟨text, named⟩

theorem crashed_name_symbols (names : Bytes) (symbols : List SymbolEntry) :
    Crashed (nameSymbols names symbols) ↔
      ∃ symbol ∈ symbols, ¬ ∃ text, Names (names.drop symbol.name) text := by
  induction symbols with
  | nil => exact iff_of_false (not_crashed_ok []) (by simp)
  | cons symbol symbols ih =>
      simp only [nameSymbols, List.mem_cons, exists_eq_or_imp, ← ih]
      rcases terminated_text_cases (names.drop symbol.name) with
        ⟨text, named, read⟩ | ⟨unnamed, crash, crashed⟩
      · have readable : ¬ ¬ ∃ text, Names (names.drop symbol.name) text :=
          not_not_intro ⟨text, named⟩
        simp only [read, readable, false_or, bind, Except.bind]
        cases nameSymbols names symbols with
        | ok others => exact iff_of_false (not_crashed_ok _) (not_crashed_ok others)
        | error stop => simp only [Crashed, Except.error.injEq]
      · simp only [crashed, bind, Except.bind]
        exact iff_of_true ⟨crash, rfl⟩ (Or.inl unnamed)

end Names

section Symbols

variable (file : Bytes) (header : FileHeader) (sections : List SectionHeader)

/-- The symbols that the sections define. -/
def definedSymbols : List SymbolEntry :=
  (((sections.filter fun section_ => section_.kind == SectionHeader.symbolKind).map
      (SectionHeader.bytes file)).flatMap (SymbolEntry.ofTable header.format)).filter
    fun symbol => symbol.home ≠ 0

/-- The search for the table of symbol names comes to the name of a section. -/
def LeadsToNames (section_ : SectionHeader) : Prop :=
  Leads file (SectionHeader.ofIndex file header header.nameSection).offset ".strtab".toList sections
    section_

/-- The bytes from the name of a section on. -/
def nameBytes (section_ : SectionHeader) : Bytes :=
  file.drop ((SectionHeader.ofIndex file header header.nameSection).offset + section_.name)

/-- The first section of that name is a table of strings. -/
structure NameTable (section_ : SectionHeader) : Prop where
  found : LeadsToNames file header sections section_
  named : Names (nameBytes file header section_) ".strtab".toList
  kind : section_.kind = SectionHeader.stringKind

/-- A name cannot be read: the table of section names, the name of a section in front of the table
of symbol names, or the name of a symbol. -/
inductive NameBreaks : Prop where
  | table (unreadable : ¬ SectionHeader.Readable file header header.nameSection)
  | section_ (readable : SectionHeader.Readable file header header.nameSection)
      (section_ : SectionHeader) (comes : LeadsToNames file header sections section_)
      (unnamed : ¬ ∃ text, Names (nameBytes file header section_) text)
  | symbol (readable : SectionHeader.Readable file header header.nameSection)
      (table : SectionHeader) (names : NameTable file header sections table)
      (symbol : SymbolEntry) (defined : symbol ∈ definedSymbols file header sections)
      (unnamed : ¬ ∃ text, Names ((table.bytes file).drop symbol.name) text)

variable {file header sections}

theorem symbol_names_of_unreadable
    (unreadable : ¬ SectionHeader.Readable file header header.nameSection) :
    Crashed (symbolNames file header sections) := by
  rw [symbolNames, SectionHeader.read_eq, relying, if_neg unreadable]
  exact ⟨_, rfl⟩

theorem symbol_names_of_readable
    (readable : SectionHeader.Readable file header header.nameSection)
    (sound : ∀ section_ ∈ sections, section_.Sound file header.format) :
    (Crashed (symbolNames file header sections) ↔
      ∃ section_, LeadsToNames file header sections section_ ∧
        ¬ ∃ text, Names (nameBytes file header section_) text) ∧
    ∀ names, symbolNames file header sections = .ok (some names) ↔
      ∃ table, NameTable file header sections table ∧ names = table.bytes file := by
  have search := find_section_iff file
    (SectionHeader.ofIndex file header header.nameSection).offset ".strtab".toList sections
  simp only [symbolNames, SectionHeader.read_eq, relying, if_pos readable, bind, Except.bind]
  cases found : findSection file (SectionHeader.ofIndex file header header.nameSection).offset
      ".strtab".toList sections with
  | error stop =>
      rw [found] at search
      refine ⟨?_, fun names => iff_of_false (fun given => by cases given) ?_⟩
      · exact (crashed_error.trans crashed_error.symm).trans search.1
      · rintro ⟨table, names, _⟩
        cases (search.2 table).mpr ⟨names.found, names.named⟩
  | ok result =>
      rw [found] at search
      have calm := mt search.1.mpr (not_crashed_ok result)
      have only : ∀ table, NameTable file header sections table → result = some table :=
        fun table names => Except.ok.inj ((search.2 table).mpr ⟨names.found, names.named⟩)
      cases result with
      | none =>
          refine ⟨iff_of_false (not_crashed_ok _) calm, fun names => iff_of_false ?_ ?_⟩
          · intro given
            cases given
          · rintro ⟨table, names, _⟩
            cases only table names
      | some table =>
          have own := (search.2 table).mp rfl
          by_cases kind : table.kind = SectionHeader.stringKind
          · have inside := SectionHeader.inside_of_sound (sound table own.1.mem) (Or.inr kind)
            simp only [if_pos kind, SectionHeader.contents_eq, relying, if_pos inside]
            refine ⟨iff_of_false (not_crashed_ok _) calm, fun names => ⟨?_, ?_⟩⟩
            · intro given
              cases given
              exact ⟨table, ⟨own.1, own.2, kind⟩, rfl⟩
            · rintro ⟨other, names, rfl⟩
              cases only other names
              rfl
          · simp only [if_neg kind]
            refine ⟨iff_of_false (not_crashed_ok _) calm, fun names => iff_of_false ?_ ?_⟩
            · intro given
              cases given
            · rintro ⟨other, names, _⟩
              cases only other names
              exact kind names.kind

theorem crashed_named (sound : ∀ section_ ∈ sections, section_.Sound file header.format) :
    Crashed (do
        match ← symbolNames file header sections with
        | some names => nameSymbols names (definedSymbols file header sections)
        | none => pure []) ↔
      NameBreaks file header sections := by
  rw [crashed_bind]
  by_cases readable : SectionHeader.Readable file header header.nameSection
  · obtain ⟨crashes, gives⟩ := symbol_names_of_readable readable sound
    rw [crashes]
    constructor
    · rintro (⟨section_, comes, unnamed⟩ | ⟨_ | names, given, crashed⟩)
      · exact .section_ readable section_ comes unnamed
      · exact absurd crashed (not_crashed_ok [])
      · obtain ⟨table, found, rfl⟩ := (gives names).mp given
        obtain ⟨symbol, defined, unnamed⟩ := (crashed_name_symbols _ _).mp crashed
        exact .symbol readable table found symbol defined unnamed
    · intro breaks
      cases breaks with
      | table unreadable => exact absurd readable unreadable
      | section_ _ section_ comes unnamed => exact Or.inl ⟨section_, comes, unnamed⟩
      | symbol _ table found symbol defined unnamed =>
          exact Or.inr ⟨_, (gives _).mpr ⟨table, found, rfl⟩,
            (crashed_name_symbols _ _).mpr ⟨symbol, defined, unnamed⟩⟩
  · exact iff_of_true (Or.inl (symbol_names_of_unreadable readable)) (.table readable)

/-- Reading symbols crashes at contents that a section does not have, and at a name only if there is
a symbol to be named. -/
theorem crashed_symbols_of :
    Crashed (symbolsOf file header sections) ↔
      (∃ section_ ∈ sections, ¬ section_.Sound file header.format) ∨
      (∀ section_ ∈ sections, section_.Sound file header.format) ∧
        definedSymbols file header sections ≠ [] ∧ NameBreaks file header sections := by
  rw [symbolsOf, for_m_relying (SectionHeader.check_eq file header.format),
    map_m_relying (SectionHeader.contents_eq file)]
  by_cases sound : ∀ section_ ∈ sections, section_.Sound file header.format
  · have inside : ∀ section_ ∈ sections.filter fun section_ =>
        section_.kind == SectionHeader.symbolKind,
        section_.offset + section_.size ≤ file.length := by
      intro section_ listed
      obtain ⟨member, kind⟩ := List.mem_filter.mp listed
      exact SectionHeader.inside_of_sound (sound section_ member) (Or.inl (eq_of_beq kind))
    have whole : ¬ ∃ section_ ∈ sections, ¬ section_.Sound file header.format :=
      fun ⟨section_, member, unsound⟩ => unsound (sound section_ member)
    rw [or_iff_right whole, and_iff_right sound, ← crashed_named sound, relying, relying,
      if_pos sound, if_pos inside]
    change Crashed (if (definedSymbols file header sections).isEmpty then _ else _) ↔ _
    by_cases nothing : definedSymbols file header sections = []
    · rw [if_pos (List.isEmpty_iff.mpr nothing)]
      exact iff_of_false (not_crashed_ok []) fun breaks => breaks.1 nothing
    · rw [if_neg (mt List.isEmpty_iff.mp nothing), and_iff_right nothing]
      exact Iff.rfl
  · obtain ⟨section_, broken⟩ := Classical.not_forall.mp sound
    rw [relying, if_neg sound]
    exact iff_of_true ⟨_, rfl⟩ (Or.inl ⟨section_, Classical.not_imp.mp broken⟩)

end Symbols

end RemoteBoot.Image
