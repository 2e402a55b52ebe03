import RemoteBoot.Fault
import RemoteBoot.Word

/-!
# The layout of image files

Image files are little-endian whatever they say, and come in two classes that differ in the width of
addresses.  Headers are records of fields at fixed places.  Tables of headers are arrays of equal
entries; an entry must lie in the file, be long enough and start at a multiple of the address width.
-/

set_option autoImplicit false

namespace RemoteBoot.Image

/-- The bytes of a file from an offset on, if the file has that many. -/
def slice? (file : Bytes) (offset size : Nat) : Option Bytes :=
  if offset + size ≤ file.length then some ((file.drop offset).take size) else none

/-- The number in a field of a record. -/
def field (record : Bytes) (offset width : Nat) : Nat :=
  Word.ofLittleEndian ((record.drop offset).take width)

/-- The class of an image by the width of its addresses. -/
inductive Class where
  | narrow
  | wide
  deriving DecidableEq, Repr

namespace Class

/-- One of two values, by class. -/
def pick {α : Type} (narrow wide : α) : Class → α
  | .narrow => narrow
  | .wide => wide

/-- The bytes of an address. -/
def addressWidth : Class → Nat := pick 4 8

def fileHeaderSize : Class → Nat := pick 52 64

def programHeaderSize : Class → Nat := pick 32 56

def sectionHeaderSize : Class → Nat := pick 40 64

def symbolSize : Class → Nat := pick 16 24

end Class

/-- What the file header says about the rest. -/
structure FileHeader where
  format : Class
  entry : Nat
  programOffset : Nat
  sectionOffset : Nat
  programSize : Nat
  programCount : Nat
  sectionSize : Nat
  sectionCount : Nat
  /-- The section that holds the names of sections. -/
  nameSection : Nat
  deriving DecidableEq, Repr

namespace FileHeader

def magic : Bytes := [0x7f, 0x45, 0x4c, 0x46]

/-- Reads the fields of a header of a class. -/
def ofRecord (format : Class) (record : Bytes) : FileHeader where
  format := format
  entry := field record 24 format.addressWidth
  programOffset := field record (format.pick 28 32) format.addressWidth
  sectionOffset := field record (format.pick 32 40) format.addressWidth
  programSize := field record (format.pick 42 54) 2
  programCount := field record (format.pick 44 56) 2
  sectionSize := field record (format.pick 46 58) 2
  sectionCount := field record (format.pick 48 60) 2
  nameSection := field record (format.pick 50 62) 2

/-- The header of a file, or why it has none. -/
def ofFile (file : Bytes) : Except String FileHeader :=
  if file.length < 16 then .error "File is shorter than the first ELF header part"
  else if file.take 4 ≠ magic then .error "Did not find ELF magic number"
  else
    let read (format : Class) : Except String FileHeader :=
      if file.length < format.fileHeaderSize then .error "File is shorter than ELF headers"
      else .ok (ofRecord format file)
    match field file 4 1 with
    | 1 => read .narrow
    | 2 => read .wide
    | _ => .error "Invalid ELF class"

end FileHeader

/-- One entry of a table of headers; `least` bytes of it are used. -/
def tableEntry? (file : Bytes) (format : Class) (offset size least index : Nat) :
    Option Bytes :=
  let start := offset + index * size
  if least ≤ size ∧ start % format.addressWidth = 0 then slice? file start size else none

structure ProgramHeader where
  kind : Nat
  offset : Nat
  virtualAddress : Nat
  physicalAddress : Nat
  fileSize : Nat
  memorySize : Nat
  deriving DecidableEq, Repr

namespace ProgramHeader

/-- The kind of a part that is loaded. -/
def loadKind : Nat := 1

def ofRecord (format : Class) (record : Bytes) : ProgramHeader where
  kind := field record 0 4
  offset := field record (format.pick 4 8) format.addressWidth
  virtualAddress := field record (format.pick 8 16) format.addressWidth
  physicalAddress := field record (format.pick 12 24) format.addressWidth
  fileSize := field record (format.pick 16 32) format.addressWidth
  memorySize := field record (format.pick 20 40) format.addressWidth

/-- The program header at an index. -/
def read (file : Bytes) (header : FileHeader) (index : Nat) : Except Stop ProgramHeader :=
  match tableEntry? file header.format header.programOffset header.programSize
    header.format.programHeaderSize index with
  | some record => .ok (ofRecord header.format record)
  | none => .error (.crash .brokenImage)

/-- How many program headers are read. -/
def count (header : FileHeader) : Nat :=
  if header.programOffset = 0 ∨ header.programSize = 0 then 0 else header.programCount

end ProgramHeader

structure SectionHeader where
  name : Nat
  kind : Nat
  offset : Nat
  size : Nat
  deriving DecidableEq, Repr

namespace SectionHeader

def ofRecord (format : Class) (record : Bytes) : SectionHeader where
  name := field record 0 4
  kind := field record 4 4
  offset := field record (format.pick 16 24) format.addressWidth
  size := field record (format.pick 20 32) format.addressWidth

/-- Indices from here on are reserved. -/
def reserved : Nat := 0xff00

/-- The section header at an index. -/
def read (file : Bytes) (header : FileHeader) (index : Nat) : Except Stop SectionHeader :=
  if index ≥ reserved then .error (.crash .brokenImage)
  else
    match tableEntry? file header.format header.sectionOffset header.sectionSize
      header.format.sectionHeaderSize index with
    | some record => .ok (ofRecord header.format record)
    | none => .error (.crash .brokenImage)

/-- What has to hold of the contents of a section, by its kind. -/
inductive Contents where
  /-- Nothing: they are not looked at. -/
  | ignored
  /-- They are in the file, from a size on, at a multiple of an alignment; behind a first part they
  are whole entries. -/
  | checked (least alignment skipped entrySize : Nat)
  deriving DecidableEq, Repr

/-- The demands on the contents of a section of a kind. -/
def demands (format : Class) (kind : Nat) : Contents :=
  let width := format.addressWidth
  match kind with
  | 1 | 3 | 10 => .checked 0 1 0 1
  | 2 | 11 => .checked 0 width 0 format.symbolSize
  | 4 => .checked 0 width 0 (format.pick 12 24)
  | 5 => .checked 12 4 0 1
  | 6 | 9 => .checked 0 width 0 (format.pick 8 16)
  | 7 => format.pick (.checked 0 1 0 1) (.checked 12 4 0 1)
  | 14 | 15 | 16 => .checked 0 width 0 width
  | 17 => .checked 4 4 4 4
  | 18 => .checked 0 4 0 4
  | _ => if kind ≥ 0x60000000 then .checked 0 1 0 1 else .ignored

/-- Sections of these kinds have no name that is looked up. -/
def isNameless (kind : Nat) : Bool :=
  kind == 0 || kind == 12 || kind == 13 || (19 ≤ kind && kind < 0x60000000)

def symbolKind : Nat := 2

def stringKind : Nat := 3

/-- The contents of a section that lie in the file. -/
def contents (file : Bytes) (section_ : SectionHeader) : Except Stop Bytes :=
  match slice? file section_.offset section_.size with
  | some contents => .ok contents
  | none => .error (.crash .brokenImage)

/-- Checks what is demanded of the contents of a section. -/
def check (file : Bytes) (format : Class) (section_ : SectionHeader) : Except Stop Unit := do
  match demands format section_.kind with
  | .ignored => pure ()
  | .checked least alignment skipped entrySize =>
    let _ ← contents file section_
    if least ≤ section_.size ∧ section_.offset % alignment = 0
      ∧ (section_.size - skipped) % entrySize = 0 then pure ()
    else .error (.crash .brokenImage)

end SectionHeader

structure SymbolEntry where
  name : Nat
  /-- The section a symbol belongs to; 0 if it is not defined here. -/
  home : Nat
  value : Nat
  deriving DecidableEq, Repr

namespace SymbolEntry

def ofRecord (format : Class) (record : Bytes) : SymbolEntry where
  name := field record 0 4
  home := field record (format.pick 14 6) 2
  value := field record (format.pick 4 8) format.addressWidth

/-- The entries of a symbol table of whole entries. -/
def ofTable (format : Class) (table : Bytes) : List SymbolEntry :=
  (List.range (table.length / format.symbolSize)).map fun index =>
    ofRecord format ((table.drop (index * format.symbolSize)).take format.symbolSize)

end SymbolEntry

/-- The text that ends at the first zero byte. -/
def terminatedText (bytes : Bytes) : Except Stop Text :=
  if 0 ∈ bytes then
    match Utf8.decode (bytes.takeWhile fun byte => byte ≠ 0) with
    | .ok text => .ok text
    | .error _ => .error (.crash .brokenImage)
  else .error (.crash .brokenImage)

end RemoteBoot.Image
