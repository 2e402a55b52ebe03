import RemoteBoot.Files.Source
import RemoteBoot.Image.Format
import RemoteBoot.Image.Region
import RemoteBoot.Journal

/-!
# Images

Two things are taken from an image file: the segments to be loaded, which also map virtual to
physical addresses, and the symbols.  A segment that the file cannot fill is a fault; a table that
lies outside the file or is misplaced is a crash.
-/

set_option autoImplicit false

namespace RemoteBoot

structure Image where
  name : String
  file : Bytes
  entry : Nat
  segments : List Image.Segment
  /-- Names with their values in file order; of one name the last value counts. -/
  symbols : List (Text × Nat)

namespace Image

def rejected {α : Type} (name reason : String) : Except Stop α :=
  .error (.fault (.binary name reason))

/-- The segment of a program header, checked against the file. -/
def loadSegment (name : String) (file : Bytes) (program : ProgramHeader) :
    Except Stop Segment :=
  if file.length < program.offset + program.fileSize then
    rejected name ("segment at " ++ Numeral.hex program.virtualAddress
      ++ " extends past end of file")
  else if program.memorySize < program.fileSize then
    rejected name ("segment at " ++ Numeral.hex program.virtualAddress
      ++ " has memsz below filesz")
  else
    .ok ⟨program.offset, program.virtualAddress, program.physicalAddress, program.fileSize,
      program.memorySize⟩

/-- The segments of the program headers at some indices. -/
def segmentsAt (name : String) (file : Bytes) (header : FileHeader) :
    List Nat → Except Stop (List Segment)
  | [] => pure []
  | index :: indices => do
    let program ← ProgramHeader.read file header index
    if program.kind = ProgramHeader.loadKind then
      let segment ← loadSegment name file program
      let others ← segmentsAt name file header indices
      pure (segment :: others)
    else
      segmentsAt name file header indices

/-- The first section of a name; sections in front of it must have names that can be read. -/
def findSection (file : Bytes) (names : Nat) (wanted : Text) :
    List SectionHeader → Except Stop (Option SectionHeader)
  | [] => pure none
  | section_ :: sections =>
    if SectionHeader.isNameless section_.kind then findSection file names wanted sections
    else do
      let name ← terminatedText (file.drop (names + section_.name))
      if name = wanted then pure (some section_)
      else findSection file names wanted sections

/-- The table of symbol names, if the file has one. -/
def symbolNames (file : Bytes) (header : FileHeader) (sections : List SectionHeader) :
    Except Stop (Option Bytes) := do
  let names ← SectionHeader.read file header header.nameSection
  match ← findSection file names.offset ".strtab".toList sections with
  | none => pure none
  | some section_ =>
    if section_.kind = SectionHeader.stringKind then
      let contents ← SectionHeader.contents file section_
      pure (some contents)
    else pure none

/-- The names and values of defined symbols; symbols without a name are left out. -/
def nameSymbols (names : Bytes) : List SymbolEntry → Except Stop (List (Text × Nat))
  | [] => pure []
  | symbol :: symbols => do
    let name ← terminatedText (names.drop symbol.name)
    let others ← nameSymbols names symbols
    pure (if name = [] then others else (name, symbol.value) :: others)

/-- The symbols of an image whose sections have been read. -/
def symbolsOf (file : Bytes) (header : FileHeader) (sections : List SectionHeader) :
    Except Stop (List (Text × Nat)) := do
  sections.forM (SectionHeader.check file header.format)
  let tables ← (sections.filter fun section_ => section_.kind == SectionHeader.symbolKind).mapM
    (SectionHeader.contents file)
  let defined := (tables.flatMap (SymbolEntry.ofTable header.format)).filter fun symbol =>
    symbol.home ≠ 0
  if defined.isEmpty then pure []
  else
    match ← symbolNames file header sections with
    | some names => nameSymbols names defined
    | none => pure []

/-- Reads an image; `name` stands for the file in messages. -/
def read (name : String) (file : Bytes) : Except Stop Image :=
  match FileHeader.ofFile file with
  | .error reason => rejected name reason
  | .ok header => do
    let segments ← segmentsAt name file header (List.range (ProgramHeader.count header))
    let sections ← (List.range header.sectionCount).mapM (SectionHeader.read file header)
    let symbols ← symbolsOf file header sections
    if segments.isEmpty then rejected name "no PT_LOAD segments"
    else pure ⟨name, file, header.entry, segments, symbols⟩

/-- How many different names have a value. -/
def symbolCount (image : Image) : Nat :=
  (image.symbols.map Prod.fst).eraseDups.length

/-- Reads an image and notes what was found. -/
def decode (name : String) (file : Bytes) : Noted Image := do
  let image ← Noted.ofExcept (read name file)
  Noted.note .debug .image (name ++ ": " ++ Numeral.decimal image.segments.length
    ++ " segments, " ++ Numeral.decimal image.symbolCount ++ " symbols, entry "
    ++ Numeral.hex image.entry)
  pure image

/-- Reads the image in a file. -/
def ofFile (files : FileSource) (path : Path) : Noted Image :=
  match files.read path with
  | .ok contents => decode path.toString contents
  | .error failure => Noted.fail (.binary path.toString failure.message)

/-- The virtual address of a symbol. -/
def symbol (image : Image) (name : Text) : Except Fault Nat :=
  match image.symbols.reverse.lookup name with
  | some value => .ok value
  | none => .error (.symbolNotFound name)

def regions (image : Image) : List Region :=
  image.segments.map Segment.region

/-- The physical address behind a virtual one; the first region that holds it decides. -/
def physicalAddress (image : Image) (address : Nat) : Except Stop Nat :=
  match image.regions.find? fun region => region.contains address with
  | some region => region.physical address
  | none => .error (.fault (.unmappedAddress address))

def symbolPhysical (image : Image) (name : Text) : Except Stop Nat := do
  let address ← Stop.lift (image.symbol name)
  image.physicalAddress address

/-- The bytes that the file provides for a segment. -/
def segmentData (image : Image) (segment : Segment) : Bytes :=
  (image.file.drop segment.fileOffset).take segment.fileSize

end Image
end RemoteBoot
