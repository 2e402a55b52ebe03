import RemoteBoot.Image.Writer
import RemoteBoot.Proofs.Text.Utf8

/-!
# Reading written records

A record is a row of numbers of given widths.  The records of an image file read back as they were
written: every number lies where the reader looks for it, as long as it fits its width.
-/

set_option autoImplicit false

namespace RemoteBoot.Image

/-- Numbers of given widths, one behind the other. -/
def row : List Nat → List Nat → Bytes
  | width :: widths, value :: values => Word.littleEndian width value ++ row widths values
  | _, _ => []

/-- The bytes of a row of numbers of given widths. -/
def rowLength : List Nat → Nat
  | [] => 0
  | width :: widths => width + rowLength widths

theorem length_row {widths values : List Nat} (same : widths.length = values.length) :
    (row widths values).length = rowLength widths := by
  induction widths generalizing values with
  | nil => rfl
  | cons width widths ih =>
      cases values with
      | nil => cases same
      | cons value values =>
          rw [row, List.length_append, Word.length_littleEndian, rowLength,
            ih (Nat.succ.inj same)]

/-- A number of a row is read behind the numbers in front of it. -/
theorem field_of_row (rest : Bytes) (index : Nat) {widths values : List Nat}
    {offset width value : Nat} (sized : widths[index]? = some width)
    (listed : values[index]? = some value) (place : rowLength (widths.take index) = offset)
    (fits : value < Word.range width) :
    field (row widths values ++ rest) offset width = value := by
  subst place
  induction widths generalizing values index with
  | nil => cases sized
  | cons first widths ih =>
      cases values with
      | nil => cases listed
      | cons head values =>
          have length := Word.length_littleEndian first head
          rw [row, List.append_assoc]
          cases index with
          | zero =>
              cases sized
              cases listed
              rw [List.take_zero, rowLength, field, List.drop_zero, List.take_left' length,
                Word.ofLittleEndian_littleEndian, Nat.mod_eq_of_lt fits]
          | succ index =>
              have later := ih index sized listed
              rw [field] at later
              rw [List.take_succ_cons, rowLength, field, ← List.drop_drop,
                List.drop_left' length, later]

theorem field_of_record (index : Nat) {widths values : List Nat} {offset width value : Nat}
    (sized : widths[index]? = some width) (listed : values[index]? = some value)
    (place : rowLength (widths.take index) = offset) (fits : value < Word.range width) :
    field (row widths values) offset width = value := by
  have found := field_of_row [] index sized listed place fits
  rw [List.append_nil] at found
  exact found

open Blueprint

def programWidths : List Nat := [4, 4, 8, 8, 8, 8, 8, 8]

theorem program_record_eq (offset : Nat) (segment : SegmentPlan) :
    programRecord offset segment =
      row programWidths [1, 7, offset, segment.virtualAddress, segment.physicalAddress,
        segment.data.length, segment.memorySize, 8] := by
  simp only [programRecord, programWidths, row, word, long, List.append_assoc, List.append_nil]

theorem length_program_record (offset : Nat) (segment : SegmentPlan) :
    (programRecord offset segment).length = 56 := by
  rw [program_record_eq]
  exact length_row rfl

def sectionWidths : List Nat := [4, 4, 8, 8, 8, 8, 4, 4, 8, 8]

theorem section_record_eq (plan : SectionPlan) :
    sectionRecord plan =
      row sectionWidths [plan.name, plan.kind, 0, 0, plan.offset, plan.size, plan.link, plan.info,
        plan.alignment, plan.entrySize] := by
  simp only [sectionRecord, sectionWidths, row, word, long, List.append_assoc, List.append_nil]

theorem length_section_record (plan : SectionPlan) : (sectionRecord plan).length = 64 := by
  rw [section_record_eq]
  exact length_row rfl

def symbolWidths : List Nat := [4, 1, 1, 2, 8, 8]

theorem symbol_record_eq (name value : Nat) :
    symbolRecord name value = row symbolWidths [name, 0x12, 0, 0xfff1, value, 0] := by
  have kind : ([0x12, 0] : Bytes) = Word.littleEndian 1 0x12 ++ Word.littleEndian 1 0 := rfl
  simp only [symbolRecord, symbolWidths, row, word, half, long, kind, List.append_assoc,
    List.append_nil]

theorem length_symbol_record (name value : Nat) : (symbolRecord name value).length = 24 := by
  rw [symbol_record_eq]
  exact length_row rfl

def headerWidths : List Nat := [4, 1, 3, 8, 2, 2, 4, 8, 8, 8, 4, 2, 2, 2, 2, 2, 2]

theorem header_record_eq (entry programCount sectionOffset : Nat) :
    headerRecord entry programCount sectionOffset =
      row headerWidths [0x464c457f, 2, 0x101, 0, 2, 0x3e, 1, entry, 64, sectionOffset, 0, 64, 56,
        programCount, 64, 4, 3] := by
  have identification : FileHeader.magic ++ [2, 1, 1, 0] ++ List.replicate 8 0 =
      Word.littleEndian 4 0x464c457f ++ Word.littleEndian 1 2 ++ Word.littleEndian 3 0x101 ++
        Word.littleEndian 8 0 := rfl
  rw [headerRecord, identification]
  simp only [headerWidths, row, word, half, long, List.append_assoc, List.append_nil]

theorem length_header_record (entry programCount sectionOffset : Nat) :
    (headerRecord entry programCount sectionOffset).length = 64 := by
  rw [header_record_eq]
  exact length_row rfl

/-- The numbers of a segment fit 64 bits, and its data fit its size in memory. -/
structure SegmentPlan.Fits (segment : SegmentPlan) : Prop where
  virtualAddress : segment.virtualAddress < 0x10000000000000000
  physicalAddress : segment.physicalAddress < 0x10000000000000000
  memorySize : segment.memorySize < 0x10000000000000000
  room : segment.data.length ≤ segment.memorySize

theorem program_header_of_record {offset : Nat} {segment : SegmentPlan}
    (place : offset < 0x10000000000000000) (fits : segment.Fits) :
    ProgramHeader.ofRecord .wide (programRecord offset segment) =
      ⟨ProgramHeader.loadKind, offset, segment.virtualAddress, segment.physicalAddress,
        segment.data.length, segment.memorySize⟩ := by
  have size : segment.data.length < 0x10000000000000000 :=
    Nat.lt_of_le_of_lt fits.room fits.memorySize
  rw [program_record_eq]
  simp only [ProgramHeader.ofRecord, ProgramHeader.mk.injEq]
  exact ⟨field_of_record 0 rfl rfl rfl (by decide), field_of_record 2 rfl rfl rfl place,
    field_of_record 3 rfl rfl rfl fits.virtualAddress,
    field_of_record 4 rfl rfl rfl fits.physicalAddress, field_of_record 5 rfl rfl rfl size,
    field_of_record 6 rfl rfl rfl fits.memorySize⟩

theorem section_header_of_record {plan : SectionPlan} (name : plan.name < 0x100000000)
    (kind : plan.kind < 0x100000000) (offset : plan.offset < 0x10000000000000000)
    (size : plan.size < 0x10000000000000000) :
    SectionHeader.ofRecord .wide (sectionRecord plan) =
      ⟨plan.name, plan.kind, plan.offset, plan.size⟩ := by
  rw [section_record_eq]
  simp only [SectionHeader.ofRecord, SectionHeader.mk.injEq]
  exact ⟨field_of_record 0 rfl rfl rfl name, field_of_record 1 rfl rfl rfl kind,
    field_of_record 4 rfl rfl rfl offset, field_of_record 5 rfl rfl rfl size⟩

theorem symbol_of_record {name value : Nat} (named : name < 0x100000000)
    (valued : value < 0x10000000000000000) :
    SymbolEntry.ofRecord .wide (symbolRecord name value) = ⟨name, 0xfff1, value⟩ := by
  rw [symbol_record_eq]
  simp only [SymbolEntry.ofRecord, SymbolEntry.mk.injEq]
  exact ⟨field_of_record 0 rfl rfl rfl named, field_of_record 3 rfl rfl rfl (by decide),
    field_of_record 4 rfl rfl rfl valued⟩

theorem file_header_of_record {entry programCount sectionOffset : Nat} (rest : Bytes)
    (start : entry < 0x10000000000000000) (count : programCount < 0x10000)
    (place : sectionOffset < 0x10000000000000000) :
    FileHeader.ofFile (headerRecord entry programCount sectionOffset ++ rest) =
      .ok ⟨.wide, entry, 64, sectionOffset, 56, programCount, 64, 4, 3⟩ := by
  have length : (headerRecord entry programCount sectionOffset ++ rest).length =
      64 + rest.length := by
    rw [List.length_append, length_header_record]
  -- The two checks look at the first bytes, before the numbers of the header are read.
  have magic : (headerRecord entry programCount sectionOffset ++ rest).take 4 =
      FileHeader.magic := by
    simp only [headerRecord, List.append_assoc]
    exact List.take_left' rfl
  have long : ¬ (headerRecord entry programCount sectionOffset ++ rest).length < 16 := by
    omega
  have whole : ¬ (headerRecord entry programCount sectionOffset ++ rest).length <
      Class.fileHeaderSize .wide := by
    rw [length]
    exact Nat.not_lt.mpr (Nat.le_add_right 64 _)
  have format : field (headerRecord entry programCount sectionOffset ++ rest) 4 1 = 2 := by
    rw [header_record_eq]
    exact field_of_row rest 1 rfl rfl rfl (by decide)
  rw [FileHeader.ofFile, if_neg long, magic, if_neg (fun differs => differs rfl), format]
  simp only [if_neg whole, Except.ok.injEq, FileHeader.ofRecord, FileHeader.mk.injEq]
  rw [header_record_eq]
  exact ⟨trivial, field_of_row rest 7 rfl rfl rfl start,
    field_of_row rest 8 rfl rfl rfl (by decide), field_of_row rest 9 rfl rfl rfl place,
    field_of_row rest 12 rfl rfl rfl (by decide), field_of_row rest 13 rfl rfl rfl count,
    field_of_row rest 14 rfl rfl rfl (by decide), field_of_row rest 15 rfl rfl rfl (by decide),
    field_of_row rest 16 rfl rfl rfl (by decide)⟩

/-- A text without a zero character is read up to the zero byte behind it. -/
theorem terminated_text_encode {text : Text} (clean : '\x00' ∉ text) (rest : Bytes) :
    terminatedText (Utf8.encode text ++ 0 :: rest) = .ok text := by
  have nonzero : ∀ byte ∈ Utf8.encode text, decide (byte ≠ 0) = true := by
    intro byte member
    rw [decide_eq_true_eq]
    rintro rfl
    exact Utf8.zero_not_mem_encode clean member
  have first : (Utf8.encode text ++ 0 :: rest).takeWhile (fun byte => decide (byte ≠ 0)) =
      Utf8.encode text := by
    rw [List.takeWhile_append_of_pos nonzero, List.takeWhile_cons_of_neg (by decide),
      List.append_nil]
  rw [terminatedText, if_pos (List.mem_append_right _ List.mem_cons_self), first,
    Utf8.decode_encode]

end RemoteBoot.Image
