import RemoteBoot.Image.Format

/-!
# Writing images

A blueprint is a wide image with loadable segments and a symbol table.  The file is laid out as file
header, program headers, segments, symbol names, section names, symbol table and section headers;
every part starts at a multiple of eight.
-/

set_option autoImplicit false

namespace RemoteBoot.Image

structure SegmentPlan where
  virtualAddress : Nat
  physicalAddress : Nat
  data : Bytes
  memorySize : Nat
  deriving DecidableEq, Repr

structure Blueprint where
  entry : Nat := 0
  segments : List SegmentPlan := []
  symbols : List (Text × Nat) := []

namespace Blueprint

/-- Bytes filled with zeros up to a multiple of eight. -/
def padded (bytes : Bytes) : Bytes :=
  bytes ++ List.replicate ((8 - bytes.length % 8) % 8) 0

def half (value : Nat) : Bytes := Word.littleEndian 2 value

def word (value : Nat) : Bytes := Word.littleEndian 4 value

def long (value : Nat) : Bytes := Word.littleEndian 8 value

/-- A zero byte, then every name with a zero byte behind it. -/
def nameTable (names : List Text) : Bytes :=
  0 :: names.flatMap fun name => Utf8.encode name ++ [0]

/-- Where each name starts in a table whose next name starts at an offset. -/
def nameOffsets : Nat → List Text → List Nat
  | _, [] => []
  | offset, name :: names =>
    offset :: nameOffsets (offset + (Utf8.encode name).length + 1) names

def sectionNames : Bytes :=
  nameTable [".symtab".toList, ".strtab".toList, ".shstrtab".toList]

/-- A global function of an absolute value. -/
def symbolRecord (name value : Nat) : Bytes :=
  word name ++ [0x12, 0] ++ half 0xfff1 ++ long value ++ long 0

def symbolTable (symbols : List (Text × Nat)) : Bytes :=
  List.replicate 24 0 ++
    ((nameOffsets 1 (symbols.map Prod.fst)).zip (symbols.map Prod.snd)).flatMap
      fun (name, value) => symbolRecord name value

/-- The fields of a section header that differ between sections. -/
structure SectionPlan where
  name : Nat
  kind : Nat
  offset : Nat
  size : Nat
  link : Nat
  info : Nat
  alignment : Nat
  entrySize : Nat

def sectionRecord (plan : SectionPlan) : Bytes :=
  word plan.name ++ word plan.kind ++ long 0 ++ long 0 ++ long plan.offset ++ long plan.size
    ++ word plan.link ++ word plan.info ++ long plan.alignment ++ long plan.entrySize

def programRecord (offset : Nat) (segment : SegmentPlan) : Bytes :=
  word 1 ++ word 7 ++ long offset ++ long segment.virtualAddress ++ long segment.physicalAddress
    ++ long segment.data.length ++ long segment.memorySize ++ long 8

/-- Program headers of segments whose data lie one behind the other from an offset on. -/
def programRecords : Nat → List SegmentPlan → Bytes
  | _, [] => []
  | offset, segment :: segments =>
    programRecord offset segment
      ++ programRecords (offset + (padded segment.data).length) segments

/-- The file header of an image with so many program headers and four sections. -/
def headerRecord (entry programCount sectionOffset : Nat) : Bytes :=
  FileHeader.magic ++ [2, 1, 1, 0] ++ List.replicate 8 0 ++ half 2 ++ half 0x3e ++ word 1
    ++ long entry ++ long 64 ++ long sectionOffset ++ word 0 ++ half 64 ++ half 56
    ++ half programCount ++ half 64 ++ half 4 ++ half 3

/-- The bytes of the image file. -/
def build (plan : Blueprint) : Bytes :=
  let names := nameTable (plan.symbols.map Prod.fst)
  let table := symbolTable plan.symbols
  let dataOffset := 64 + 56 * plan.segments.length
  let data := plan.segments.flatMap fun segment => padded segment.data
  let namesOffset := dataOffset + data.length
  let sectionNamesOffset := namesOffset + (padded names).length
  let tableOffset := sectionNamesOffset + (padded sectionNames).length
  let sectionOffset := tableOffset + (padded table).length
  headerRecord plan.entry plan.segments.length sectionOffset
    ++ programRecords dataOffset plan.segments
    ++ data ++ padded names ++ padded sectionNames ++ padded table
    ++ List.replicate 64 0
    ++ sectionRecord ⟨1, 2, tableOffset, table.length, 2, 1, 8, 24⟩
    ++ sectionRecord ⟨9, 3, namesOffset, names.length, 0, 0, 1, 0⟩
    ++ sectionRecord ⟨17, 3, sectionNamesOffset, sectionNames.length, 0, 0, 1, 0⟩

end Blueprint
end RemoteBoot.Image
