import Mathlib.Data.List.Forall2
import RemoteBoot.Proofs.Image.SymbolTables
import RemoteBoot.Proofs.Image.Windows

/-!
# Images that were built

The reader undoes the writer: of a blueprint whose numbers fit their fields, the built file is an
image with the entry point, the segments and the symbols of the blueprint.
-/

set_option autoImplicit false

namespace RemoteBoot.Image

/-- The numbers of a blueprint fit the fields of the file, the lengths and offsets of its parts
included, and no name has the zero that ends it. -/
structure Blueprint.Fits (plan : Blueprint) : Prop where
  entry : plan.entry < 0x10000000000000000
  loaded : plan.segments ≠ []
  count : plan.segments.length ≤ 65535
  segments : ∀ segment ∈ plan.segments, segment.Fits
  clean : ∀ symbol ∈ plan.symbols, '\x00' ∉ symbol.1
  values : ∀ symbol ∈ plan.symbols, symbol.2 < 0x10000000000000000
  names : (Blueprint.nameTable (plan.symbols.map Prod.fst)).length < 0x100000000
  size : plan.build.length < 0x10000000000000000

/-- A segment of an image is a given one, data included. -/
structure Carries (image : Image) (segment : Segment) (plan : SegmentPlan) : Prop where
  virtualAddress : segment.virtualAddress = plan.virtualAddress
  physicalAddress : segment.physicalAddress = plan.physicalAddress
  fileSize : segment.fileSize = plan.data.length
  memorySize : segment.memorySize = plan.memorySize
  data : image.segmentData segment = plan.data

/-- An image is what a blueprint says. -/
structure Restores (image : Image) (plan : Blueprint) : Prop where
  entry : image.entry = plan.entry
  segments : List.Forall₂ (Carries image) image.segments plan.segments
  symbol : ∀ name value, name ≠ [] → Blueprint.LastNamed plan.symbols name value →
    image.symbol name = .ok value
  missing : ∀ name, (name = [] ∨ ∀ symbol ∈ plan.symbols, symbol.1 ≠ name) →
    image.symbol name = .error (.symbolNotFound name)

theorem program_header_of_entry {file : Bytes} {header : FileHeader} {index : Nat} {record : Bytes}
    (found : tableEntry? file header.format header.programOffset header.programSize
      header.format.programHeaderSize index = some record) :
    ProgramHeader.read file header index = .ok (ProgramHeader.ofRecord header.format record) := by
  rw [ProgramHeader.read, found]

theorem section_header_of_entry {file : Bytes} {header : FileHeader} {index : Nat} {record : Bytes}
    (ordinary : index < SectionHeader.reserved)
    (found : tableEntry? file header.format header.sectionOffset header.sectionSize
      header.format.sectionHeaderSize index = some record) :
    SectionHeader.read file header index = .ok (SectionHeader.ofRecord header.format record) := by
  rw [SectionHeader.read, if_neg (Nat.not_le.mpr ordinary), found]

theorem contents_of_has {file part : Bytes} {section_ : SectionHeader}
    (has : HasAt file section_.offset part) (size : section_.size = part.length) :
    SectionHeader.contents file section_ = .ok part := by
  rw [SectionHeader.contents, size, has.slice]

theorem check_of_contents {file part : Bytes} {format : Class} {section_ : SectionHeader}
    {least alignment skipped entrySize : Nat}
    (demanded : SectionHeader.demands format section_.kind =
      .checked least alignment skipped entrySize)
    (found : SectionHeader.contents file section_ = .ok part)
    (sound : least ≤ section_.size ∧ section_.offset % alignment = 0 ∧
      (section_.size - skipped) % entrySize = 0) :
    SectionHeader.check file format section_ = .ok () := by
  simp only [SectionHeader.check, demanded, found, bind, Except.bind, if_pos sound]
  rfl

/-- Entries and their indices are related where every listed one is. -/
theorem forall_range {α : Type} {relation : Nat → α → Prop} {entries : List α}
    (related : ∀ index entry, entries[index]? = some entry → relation index entry) :
    List.Forall₂ relation (List.range entries.length) entries := by
  rw [List.forall₂_iff_get]
  refine ⟨List.length_range, ?_⟩
  intro index _ inside
  rw [List.get_eq_getElem, List.getElem_range]
  exact related index _ (List.getElem?_eq_getElem inside)

theorem map_m_of_reads {α β : Type} {read : α → Except Stop β} {indices : List α} {entries : List β}
    (reads : List.Forall₂ (fun index entry => read index = .ok entry) indices entries) :
    indices.mapM read = .ok entries := by
  induction reads with
  | nil => rfl
  | cons found rest ih => simp only [List.mapM_cons, found, ih, bind, Except.bind, pure, Except.pure]

theorem segments_at_of_reads {name : String} {file : Bytes} {header : FileHeader}
    {indices : List Nat} {segments : List Segment}
    (reads : List.Forall₂ (fun index segment => ∃ program,
      ProgramHeader.read file header index = .ok program ∧ program.kind = ProgramHeader.loadKind ∧
        loadSegment name file program = .ok segment) indices segments) :
    segmentsAt name file header indices = .ok segments := by
  induction reads with
  | nil => rfl
  | cons found rest ih =>
      obtain ⟨program, read, kind, loaded⟩ := found
      simp only [segmentsAt, read, bind, Except.bind, if_pos kind, loaded, ih, pure, Except.pure]

namespace Blueprint

variable {plan : Blueprint}

/-- What the file header of a built file says. -/
def header (plan : Blueprint) : FileHeader :=
  ⟨.wide, plan.entry, 64, plan.sectionOffset, 56, plan.segments.length, 64, 4, 3⟩

/-- The segment of a given one whose data lie at an offset. -/
def segmentOf (entry : Nat × SegmentPlan) : Segment :=
  ⟨entry.1, entry.2.virtualAddress, entry.2.physicalAddress, entry.2.data.length,
    entry.2.memorySize⟩

def placedSegments (plan : Blueprint) : List (Nat × SegmentPlan) :=
  placed plan.dataOffset plan.segments

theorem of_file_build (fits : plan.Fits) : FileHeader.ofFile plan.build = .ok plan.header := by
  have place : plan.sectionOffset < 0x10000000000000000 := by
    have within := plan.laid_build.sections.within
    have size := fits.size
    omega
  have count : plan.segments.length < 0x10000 := Nat.lt_succ_of_le fits.count
  rw [build_eq]
  exact file_header_of_record _ fits.entry count place

theorem fits_of_placed (fits : plan.Fits) :
    ∀ entry ∈ plan.placedSegments, entry.2.Fits := by
  intro entry member
  apply fits.segments
  rw [← map_snd_placed plan.dataOffset plan.segments]
  exact List.mem_map_of_mem member

theorem place_of_placed : ∀ entry ∈ plan.placedSegments, HasAt plan.build entry.1 entry.2.data :=
  data_of_placed plan.laid_build.data

theorem program_header_read (fits : plan.Fits) {index : Nat} {entry : Nat × SegmentPlan}
    (listed : plan.placedSegments[index]? = some entry) :
    ProgramHeader.read plan.build plan.header index =
      .ok ⟨ProgramHeader.loadKind, entry.1, entry.2.virtualAddress, entry.2.physicalAddress,
        entry.2.data.length, entry.2.memorySize⟩ := by
  have member := List.mem_of_getElem? listed
  have place : entry.1 < 0x10000000000000000 := by
    have within := (place_of_placed entry member).within
    have size := fits.size
    omega
  have sized := sized_program_records plan.dataOffset plan.segments
  have records := plan.laid_build.programs
  rw [program_records_eq] at records
  rw [← placedSegments] at sized records
  have found : tableEntry? plan.build .wide 64 56 56 index =
      some (programRecord entry.1 entry.2) :=
    table_entry_of_table sized records rfl rfl (Nat.le_refl _)
      (by rw [List.getElem?_map, listed, Option.map_some])
  have read : ProgramHeader.read plan.build plan.header index =
      .ok (ProgramHeader.ofRecord .wide (programRecord entry.1 entry.2)) :=
    program_header_of_entry found
  rw [read, program_header_of_record place (fits_of_placed fits entry member)]

theorem load_segment_placed (fits : plan.Fits) (name : String) {entry : Nat × SegmentPlan}
    (member : entry ∈ plan.placedSegments) :
    loadSegment name plan.build ⟨ProgramHeader.loadKind, entry.1, entry.2.virtualAddress,
      entry.2.physicalAddress, entry.2.data.length, entry.2.memorySize⟩ = .ok (segmentOf entry) := by
  have within := (place_of_placed entry member).within
  have room := (fits_of_placed fits entry member).room
  rw [loadSegment, if_neg (Nat.not_lt.mpr within), if_neg (Nat.not_lt.mpr room)]
  rfl

theorem segments_read (fits : plan.Fits) (name : String) :
    segmentsAt name plan.build plan.header (List.range (ProgramHeader.count plan.header)) =
      .ok (plan.placedSegments.map segmentOf) := by
  have count : ProgramHeader.count plan.header = plan.placedSegments.length :=
    (length_placed plan.dataOffset plan.segments).symm
  rw [count]
  apply segments_at_of_reads
  rw [List.forall₂_map_right_iff]
  apply forall_range
  intro index entry listed
  exact ⟨_, program_header_read fits listed, rfl,
    load_segment_placed fits name (List.mem_of_getElem? listed)⟩

def headerOf (plan : SectionPlan) : SectionHeader :=
  ⟨plan.name, plan.kind, plan.offset, plan.size⟩

theorem sections_within :
    ∀ section_ ∈ plan.sectionPlans, section_.name < 0x100000000 ∧ section_.kind < 0x100000000 ∧
      section_.offset + section_.size ≤ plan.build.length := by
  have laid := plan.laid_build
  simp only [sectionPlans, List.forall_mem_cons]
  refine ⟨⟨by decide, by decide, Nat.zero_le _⟩, ⟨by decide, by decide, laid.table.within⟩,
    ⟨by decide, by decide, laid.names.within⟩, ⟨by decide, by decide, laid.sectionNames.within⟩, ?_⟩
  intro section_ member
  cases member

theorem section_header_read (fits : plan.Fits) {index : Nat} {section_ : SectionPlan}
    (listed : plan.sectionPlans[index]? = some section_) :
    SectionHeader.read plan.build plan.header index = .ok (headerOf section_) := by
  obtain ⟨name, kind, within⟩ := sections_within section_ (List.mem_of_getElem? listed)
  have size := fits.size
  have ordinary : index < SectionHeader.reserved := by
    have inside : index < 4 := (List.getElem?_eq_some_iff.mp listed).1
    exact Nat.lt_trans inside (by decide)
  have sized : ∀ record ∈ plan.sectionPlans.map sectionRecord, record.length = 64 := by
    intro record member
    obtain ⟨section_, -, rfl⟩ := List.mem_map.mp member
    exact length_section_record section_
  have aligned : plan.sectionOffset % 8 = 0 := plan.offsets_aligned.2.2.2.2
  have found : tableEntry? plan.build .wide plan.sectionOffset 64 64 index =
      some (sectionRecord section_) :=
    table_entry_of_table sized plan.laid_build.sections aligned rfl (Nat.le_refl _)
      (by rw [List.getElem?_map, listed, Option.map_some])
  have read : SectionHeader.read plan.build plan.header index =
      .ok (SectionHeader.ofRecord .wide (sectionRecord section_)) :=
    section_header_of_entry ordinary found
  rw [read, section_header_of_record name kind (by omega) (by omega), headerOf]

theorem sections_read (fits : plan.Fits) :
    (List.range 4).mapM (SectionHeader.read plan.build plan.header) =
      .ok (plan.sectionPlans.map headerOf) := by
  apply map_m_of_reads
  rw [List.forall₂_map_right_iff]
  change List.Forall₂ _ (List.range plan.sectionPlans.length) plan.sectionPlans
  apply forall_range
  intro index section_ listed
  exact section_header_read fits listed

def tableHeader (plan : Blueprint) : SectionHeader :=
  ⟨1, 2, plan.tableOffset, (symbolTable plan.symbols).length⟩

def namesHeader (plan : Blueprint) : SectionHeader :=
  ⟨9, 3, plan.namesOffset, (nameTable plan.names).length⟩

def sectionNamesHeader (plan : Blueprint) : SectionHeader :=
  ⟨17, 3, plan.sectionNamesOffset, sectionNames.length⟩

theorem headers_eq : plan.sectionPlans.map headerOf =
    [⟨0, 0, 0, 0⟩, plan.tableHeader, plan.namesHeader, plan.sectionNamesHeader] := rfl

theorem table_contents :
    SectionHeader.contents plan.build plan.tableHeader = .ok (symbolTable plan.symbols) :=
  contents_of_has plan.laid_build.table rfl

theorem names_contents :
    SectionHeader.contents plan.build plan.namesHeader = .ok (nameTable plan.names) :=
  contents_of_has plan.laid_build.names rfl

theorem section_names_contents :
    SectionHeader.contents plan.build plan.sectionNamesHeader = .ok sectionNames :=
  contents_of_has plan.laid_build.sectionNames rfl

theorem checks_pass :
    (plan.sectionPlans.map headerOf).forM (SectionHeader.check plan.build .wide) = .ok () := by
  have aligned : plan.tableOffset % 8 = 0 := plan.offsets_aligned.2.2.2.1
  have whole := symbol_table_whole plan.symbols
  have blank : SectionHeader.check plan.build .wide ⟨0, 0, 0, 0⟩ = .ok () := rfl
  have table : SectionHeader.check plan.build .wide plan.tableHeader = .ok () :=
    check_of_contents rfl table_contents ⟨Nat.zero_le _, aligned, whole⟩
  have names : SectionHeader.check plan.build .wide plan.namesHeader = .ok () :=
    check_of_contents rfl names_contents ⟨Nat.zero_le _, Nat.mod_one _, Nat.mod_one _⟩
  have sectionNames : SectionHeader.check plan.build .wide plan.sectionNamesHeader = .ok () :=
    check_of_contents rfl section_names_contents ⟨Nat.zero_le _, Nat.mod_one _, Nat.mod_one _⟩
  rw [headers_eq]
  simp only [List.forM_eq_forM, List.forM_cons, List.forM_nil, blank, table, names, sectionNames,
    bind, Except.bind]
  rfl

theorem section_name_read {index : Nat} {name : Text} (clean : '\x00' ∉ name)
    (listed : HasAt sectionNames index (Utf8.encode name ++ [0])) :
    terminatedText (plan.build.drop (plan.sectionNamesOffset + index)) = .ok name :=
  terminated_text_at clean (plan.laid_build.sectionNames.trans listed)

theorem symbol_names_read (fits : plan.Fits) :
    symbolNames plan.build plan.header (plan.sectionPlans.map headerOf) =
      .ok (some (nameTable plan.names)) := by
  have listed : plan.sectionPlans[plan.header.nameSection]? =
      some ⟨17, 3, plan.sectionNamesOffset, sectionNames.length, 0, 0, 1, 0⟩ := rfl
  have symtab : terminatedText (plan.build.drop (plan.sectionNamesOffset + 1)) =
      .ok ".symtab".toList :=
    section_name_read (by decide) ⟨[0], sectionNames.drop 9, by decide, rfl⟩
  have strtab : terminatedText (plan.build.drop (plan.sectionNamesOffset + 9)) =
      .ok ".strtab".toList :=
    section_name_read (by decide) ⟨sectionNames.take 9, sectionNames.drop 17, by decide, rfl⟩
  -- The section without a name is passed over, the symbols have another name.
  have found : findSection plan.build plan.sectionNamesOffset ".strtab".toList
      (plan.sectionPlans.map headerOf) = .ok (some plan.namesHeader) := by
    rw [headers_eq]
    simp only [findSection, tableHeader, symtab, namesHeader, strtab, bind, Except.bind]
    rfl
  have kind : plan.namesHeader.kind = SectionHeader.stringKind := rfl
  simp only [symbolNames, section_header_read fits listed, headerOf, found, if_pos kind,
    names_contents, bind, Except.bind]
  rfl

theorem offsets_of_named (fits : plan.Fits) :
    ∀ entry ∈ named 1 plan.symbols,
      HasAt (nameTable plan.names) entry.1 (Utf8.encode entry.2.1 ++ [0]) ∧
        entry.1 < 0x100000000 := by
  intro entry member
  have has := name_of_named (names_in_table plan.names) entry member
  have within := has.within
  have names := fits.names
  refine ⟨has, ?_⟩
  change _ ≤ (nameTable (plan.symbols.map Prod.fst)).length at within
  omega

theorem values_of_named (fits : plan.Fits) :
    ∀ entry ∈ named 1 plan.symbols, entry.2.2 < 0x10000000000000000 := by
  intro entry member
  apply fits.values
  rw [← map_snd_named 1 plan.symbols]
  exact List.mem_map_of_mem member

theorem symbols_read (fits : plan.Fits) :
    symbolsOf plan.build plan.header (plan.sectionPlans.map headerOf) =
      .ok (nameful plan.symbols) := by
  have tables : ((plan.sectionPlans.map headerOf).filter fun section_ =>
      section_.kind == SectionHeader.symbolKind).mapM (SectionHeader.contents plan.build) =
        .ok [symbolTable plan.symbols] := by
    change [plan.tableHeader].mapM (SectionHeader.contents plan.build) = _
    simp only [List.mapM_cons, List.mapM_nil, table_contents, bind, Except.bind, pure, Except.pure]
  have entries := entries_of_symbol_table (fun entry member => (offsets_of_named fits entry member).2)
    (values_of_named fits)
  have defined : ([symbolTable plan.symbols].flatMap (SymbolEntry.ofTable plan.header.format)).filter
      (fun symbol => symbol.home ≠ 0) = definedEntries 1 plan.symbols := by
    rw [List.flatMap_singleton]
    change (SymbolEntry.ofTable .wide _).filter _ = _
    rw [entries, List.filter_cons_of_neg (by decide), filter_defined]
  have read := name_symbols_of_entries fits.clean
    (fun entry member => (offsets_of_named fits entry member).1)
  have checked : (plan.sectionPlans.map headerOf).forM
      (SectionHeader.check plan.build plan.header.format) = .ok () := checks_pass
  simp only [symbolsOf, checked, tables, defined, symbol_names_read fits, read, bind, Except.bind]
  cases plan.symbols with
  | nil => rfl
  | cons symbol symbols => rfl

/-- The image that the reader makes of a built file. -/
def restored (plan : Blueprint) (name : String) : Image :=
  ⟨name, plan.build, plan.entry, plan.placedSegments.map segmentOf, nameful plan.symbols⟩

theorem read_build (fits : plan.Fits) (name : String) :
    read name plan.build = .ok (plan.restored name) := by
  have sections : (List.range plan.header.sectionCount).mapM
      (SectionHeader.read plan.build plan.header) = .ok (plan.sectionPlans.map headerOf) :=
    sections_read fits
  have loaded : (plan.placedSegments.map segmentOf).isEmpty = false := by
    rw [List.isEmpty_map, List.isEmpty_eq_false_iff, ← List.length_pos_iff, placedSegments,
      length_placed, List.length_pos_iff]
    exact fits.loaded
  simp only [read, of_file_build fits, segments_read fits, sections, symbols_read fits, loaded, bind,
    Except.bind, pure, Except.pure, Bool.false_eq_true, if_false]
  rfl

theorem carries_restored (name : String) {entry : Nat × SegmentPlan}
    (member : entry ∈ plan.placedSegments) :
    Carries (plan.restored name) (segmentOf entry) entry.2 :=
  ⟨rfl, rfl, rfl, rfl, (place_of_placed entry member).cut⟩

theorem restores_restored (name : String) : Restores (plan.restored name) plan where
  entry := rfl
  segments := by
    have same : plan.placedSegments.map Prod.snd = plan.segments := map_snd_placed _ _
    rw [← same]
    change List.Forall₂ _ (plan.placedSegments.map segmentOf) _
    rw [List.forall₂_map_left_iff, List.forall₂_map_right_iff, List.forall₂_same]
    intro entry member
    exact carries_restored name member
  symbol := by
    intro wanted value nonempty last
    have found := lookup_of_last_named nonempty last
    simp only [Image.symbol, restored, found]
  missing := by
    intro wanted missing
    have absent := lookup_of_nameless missing
    simp only [Image.symbol, restored, absent]

end Blueprint

/-- The reader undoes the writer. -/
theorem built_images_are_restored (name : String) {plan : Blueprint} (fits : plan.Fits) :
    ∃ image, (decode name plan.build).result = .ok image ∧ Restores image plan := by
  refine ⟨plan.restored name, ?_, Blueprint.restores_restored name⟩
  rw [result_decode, Blueprint.read_build fits]

/-- Two segments, one without data, and symbols of which one has no name and two have the same. -/
def smallPlan : Blueprint where
  entry := 0x40
  segments := [⟨0x1000, 0x8000, [1, 2, 3], 5⟩, ⟨0x2000, 0x9000, [], 4⟩]
  symbols := [("größe".toList, 5), ([], 7), ("größe".toList, 9), ("go".toList, 1)]

theorem small_plan_restored :
    smallPlan.Fits ∧ ∃ image, (decode "small" smallPlan.build).result = .ok image ∧
      Restores image smallPlan := by
  have fits : smallPlan.Fits := by
    refine ⟨by decide, by decide, by decide, ?_, by decide, by decide, by decide, by decide +kernel⟩
    simp only [smallPlan, List.forall_mem_cons]
    refine ⟨⟨by decide, by decide, by decide, by decide⟩,
      ⟨by decide, by decide, by decide, by decide⟩, ?_⟩
    intro segment member
    cases member
  exact ⟨fits, built_images_are_restored "small" fits⟩

end RemoteBoot.Image
