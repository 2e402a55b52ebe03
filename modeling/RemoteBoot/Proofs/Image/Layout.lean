import RemoteBoot.Proofs.Image.Records

/-!
# Where the parts of an image file lie

The parts of a file that was built stand one behind the other, each at the offset that a header
states for it.  Offsets that a header states are multiples of eight.
-/

set_option autoImplicit false

namespace RemoteBoot.Image

/-- A file has a part at an offset. -/
def HasAt (file : Bytes) (offset : Nat) (part : Bytes) : Prop :=
  ∃ front back, file = front ++ (part ++ back) ∧ front.length = offset

section Parts

variable {file part : Bytes} {offset : Nat}

theorem HasAt.self (file : Bytes) : HasAt file 0 file :=
  ⟨[], [], (List.append_nil _).symm, rfl⟩

theorem HasAt.within (has : HasAt file offset part) : offset + part.length ≤ file.length := by
  obtain ⟨front, back, rfl, rfl⟩ := has
  rw [List.length_append, List.length_append]
  omega

theorem HasAt.behind (has : HasAt file offset part) : ∃ back, file.drop offset = part ++ back := by
  obtain ⟨front, back, rfl, length⟩ := has
  exact ⟨back, List.drop_left' length⟩

theorem HasAt.cut (has : HasAt file offset part) : (file.drop offset).take part.length = part := by
  obtain ⟨back, rest⟩ := has.behind
  rw [rest, List.take_left]

theorem HasAt.slice (has : HasAt file offset part) : slice? file offset part.length = some part := by
  rw [slice?, if_pos has.within, has.cut]

theorem HasAt.of_append {first later : Bytes} (has : HasAt file offset (first ++ later)) :
    HasAt file offset first ∧ HasAt file (offset + first.length) later := by
  obtain ⟨front, back, rfl, length⟩ := has
  refine ⟨⟨front, later ++ back, ?_, length⟩, front ++ first, back, ?_, ?_⟩
  · rw [List.append_assoc]
  · simp only [List.append_assoc]
  · rw [List.length_append, length]

/-- A part of a part lies in the file. -/
theorem HasAt.trans {inner : Bytes} {place : Nat} (has : HasAt file offset part)
    (inside : HasAt part place inner) : HasAt file (offset + place) inner := by
  obtain ⟨front, back, rfl, rfl⟩ := inside
  exact (has.of_append.2).of_append.1

/-- The entries of a table of equal entries. -/
theorem HasAt.entry {records : List Bytes} {size : Nat}
    (sized : ∀ record ∈ records, record.length = size)
    (has : HasAt file offset records.flatten) {index : Nat} {record : Bytes}
    (listed : records[index]? = some record) : HasAt file (offset + index * size) record := by
  induction records generalizing offset index with
  | nil => cases listed
  | cons first records ih =>
      obtain ⟨here, later⟩ := has.of_append
      cases index with
      | zero =>
          cases listed
          rw [Nat.zero_mul]
          exact here
      | succ index =>
          have found := ih (fun record member => sized record (List.mem_cons_of_mem _ member)) later
            listed
          rw [sized first List.mem_cons_self] at found
          rw [Nat.succ_mul, Nat.add_comm (index * size), ← Nat.add_assoc]
          exact found

theorem length_table {records : List Bytes} {size : Nat}
    (sized : ∀ record ∈ records, record.length = size) :
    records.flatten.length = records.length * size := by
  rw [List.length_flatten, List.map_congr_left sized, List.map_const', List.sum_replicate_nat]

theorem table_entry_of_table {records : List Bytes} {size least : Nat}
    (sized : ∀ record ∈ records, record.length = size)
    (has : HasAt file offset records.flatten) (aligned : offset % 8 = 0) (even : size % 8 = 0)
    (enough : least ≤ size) {index : Nat} {record : Bytes}
    (listed : records[index]? = some record) :
    tableEntry? file .wide offset size least index = some record := by
  have start : (offset + index * size) % Class.addressWidth .wide = 0 := by
    rw [Class.addressWidth, Class.pick, Nat.add_mod, aligned, Nat.mul_mod, even, Nat.mul_zero]
  have found := (has.entry sized listed).slice
  rw [sized record (List.mem_of_getElem? listed)] at found
  simp only [ tableEntry?, if_pos (And.intro enough start), found]

theorem of_table_flatten {records : List Bytes}
    (sized : ∀ record ∈ records, record.length = 24) :
    SymbolEntry.ofTable .wide records.flatten = records.map (SymbolEntry.ofRecord .wide) := by
  have whole := HasAt.self records.flatten
  have length : records.flatten.length / Class.symbolSize .wide = records.length := by
    rw [length_table sized]
    exact Nat.mul_div_cancel _ (by decide)
  rw [SymbolEntry.ofTable, length]
  apply List.ext_getElem?
  intro index
  rw [List.getElem?_map, List.getElem?_map]
  rcases Nat.lt_or_ge index records.length with inside | outside
  · have listed : records[index]? = some records[index] := List.getElem?_eq_getElem inside
    have found := (whole.entry sized listed).cut
    rw [sized _ (List.getElem_mem inside), Nat.zero_add] at found
    rw [List.getElem?_range inside, listed, Option.map_some, Option.map_some]
    exact congrArg (fun record => some (SymbolEntry.ofRecord .wide record)) found
  · rw [List.getElem?_eq_none (by rw [List.length_range]; exact outside),
      List.getElem?_eq_none outside, Option.map_none, Option.map_none]

end Parts

namespace Blueprint

theorem padded_aligned (bytes : Bytes) : (padded bytes).length % 8 = 0 := by
  rw [padded, List.length_append, List.length_replicate]
  omega

/-- The segments with the offsets of their data, the first data being at an offset. -/
def placed : Nat → List SegmentPlan → List (Nat × SegmentPlan)
  | _, [] => []
  | offset, segment :: segments =>
    (offset, segment) :: placed (offset + (padded segment.data).length) segments

theorem map_snd_placed (offset : Nat) (segments : List SegmentPlan) :
    (placed offset segments).map Prod.snd = segments := by
  induction segments generalizing offset with
  | nil => rfl
  | cons segment segments ih => rw [placed, List.map_cons, ih]

theorem length_placed (offset : Nat) (segments : List SegmentPlan) :
    (placed offset segments).length = segments.length := by
  rw [← List.length_map Prod.snd, map_snd_placed]

theorem program_records_eq (offset : Nat) (segments : List SegmentPlan) :
    programRecords offset segments =
      ((placed offset segments).map fun entry => programRecord entry.1 entry.2).flatten := by
  induction segments generalizing offset with
  | nil => rfl
  | cons segment segments ih => rw [programRecords, placed, List.map_cons, List.flatten_cons, ih]

theorem sized_program_records (offset : Nat) (segments : List SegmentPlan) :
    ∀ record ∈ (placed offset segments).map fun entry => programRecord entry.1 entry.2,
      record.length = 56 := by
  intro record member
  obtain ⟨entry, -, rfl⟩ := List.mem_map.mp member
  exact length_program_record _ _

theorem length_program_records (offset : Nat) (segments : List SegmentPlan) :
    (programRecords offset segments).length = 56 * segments.length := by
  rw [program_records_eq, length_table (sized_program_records offset segments), List.length_map,
    length_placed, Nat.mul_comm]

theorem data_of_placed {file : Bytes} {offset : Nat} {segments : List SegmentPlan}
    (has : HasAt file offset (segments.flatMap fun segment => padded segment.data)) :
    ∀ entry ∈ placed offset segments, HasAt file entry.1 entry.2.data := by
  induction segments generalizing offset with
  | nil =>
      intro entry member
      cases member
  | cons segment segments ih =>
      rw [List.flatMap_cons] at has
      obtain ⟨here, later⟩ := has.of_append
      intro entry member
      rcases List.mem_cons.mp member with rfl | rest
      · exact here.of_append.1
      · exact ih later entry rest

variable (plan : Blueprint)

def names : List Text := plan.symbols.map Prod.fst

def data : Bytes := plan.segments.flatMap fun segment => padded segment.data

def dataOffset : Nat := 64 + 56 * plan.segments.length

def namesOffset : Nat := plan.dataOffset + plan.data.length

def sectionNamesOffset : Nat := plan.namesOffset + (padded (nameTable plan.names)).length

def tableOffset : Nat := plan.sectionNamesOffset + (padded sectionNames).length

def sectionOffset : Nat := plan.tableOffset + (padded (symbolTable plan.symbols)).length

/-- The sections: none, the symbols, their names and the names of sections. -/
def sectionPlans : List SectionPlan :=
  [⟨0, 0, 0, 0, 0, 0, 0, 0⟩,
    ⟨1, 2, plan.tableOffset, (symbolTable plan.symbols).length, 2, 1, 8, 24⟩,
    ⟨9, 3, plan.namesOffset, (nameTable plan.names).length, 0, 0, 1, 0⟩,
    ⟨17, 3, plan.sectionNamesOffset, sectionNames.length, 0, 0, 1, 0⟩]

theorem build_eq :
    plan.build =
      headerRecord plan.entry plan.segments.length plan.sectionOffset ++
        (programRecords plan.dataOffset plan.segments ++ (plan.data ++
          (padded (nameTable plan.names) ++ (padded sectionNames ++
            (padded (symbolTable plan.symbols) ++
              (plan.sectionPlans.map sectionRecord).flatten))))) := by
  have blank : sectionRecord ⟨0, 0, 0, 0, 0, 0, 0, 0⟩ = List.replicate 64 0 := by
    rw [section_record_eq]
    rfl
  simp only [sectionPlans, List.map_cons, List.map_nil, List.flatten_cons, List.flatten_nil, blank,
    List.append_nil]
  simp only [build, List.append_assoc]
  rfl

/-- A file has the parts of a blueprint at their offsets. -/
structure Laid (file : Bytes) : Prop where
  programs : HasAt file 64 (programRecords plan.dataOffset plan.segments)
  data : HasAt file plan.dataOffset plan.data
  names : HasAt file plan.namesOffset (nameTable plan.names)
  sectionNames : HasAt file plan.sectionNamesOffset sectionNames
  table : HasAt file plan.tableOffset (symbolTable plan.symbols)
  sections : HasAt file plan.sectionOffset (plan.sectionPlans.map sectionRecord).flatten

theorem laid_build : plan.Laid plan.build := by
  have whole := HasAt.self plan.build
  -- One part after the other is taken from the front of what is left of the file.
  conv at whole => arg 3; rw [build_eq]
  obtain ⟨-, rest⟩ := whole.of_append
  rw [length_header_record, Nat.zero_add] at rest
  obtain ⟨programs, rest⟩ := rest.of_append
  rw [length_program_records] at rest
  obtain ⟨data, rest⟩ := rest.of_append
  obtain ⟨names, rest⟩ := rest.of_append
  obtain ⟨sectionNames, rest⟩ := rest.of_append
  obtain ⟨table, sections⟩ := rest.of_append
  exact ⟨programs, data, names.of_append.1, sectionNames.of_append.1, table.of_append.1, sections⟩

theorem offsets_aligned :
    plan.dataOffset % 8 = 0 ∧ plan.namesOffset % 8 = 0 ∧ plan.sectionNamesOffset % 8 = 0 ∧
      plan.tableOffset % 8 = 0 ∧ plan.sectionOffset % 8 = 0 := by
  have data : plan.data.length % 8 = 0 := by
    rw [Blueprint.data]
    induction plan.segments with
    | nil => rfl
    | cons segment segments ih =>
        have padding := padded_aligned segment.data
        rw [List.flatMap_cons, List.length_append]
        omega
  have names := padded_aligned (nameTable plan.names)
  have sectionNames := padded_aligned Blueprint.sectionNames
  have table := padded_aligned (symbolTable plan.symbols)
  simp only [sectionOffset, tableOffset, sectionNamesOffset, namesOffset, dataOffset]
  omega

end Blueprint
end RemoteBoot.Image
