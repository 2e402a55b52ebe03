import RemoteBoot.Fault
import RemoteBoot.Path.Normal

/-!
# Where files are read from

A source answers for every path, and lists the normal spellings it can answer: it holds finitely
many files.  Files in memory are looked up by normal spelling, and the last file stored under one
spelling is the one that is read.
-/

set_option autoImplicit false

namespace RemoteBoot

/-- A key that is found in a list of pairs is the key of one of them. -/
theorem mem_of_lookup {Key Value : Type} [BEq Key] [LawfulBEq Key] {entries : List (Key × Value)}
    {key : Key} {value : Value} (found : entries.lookup key = some value) :
    key ∈ entries.map Prod.fst := by
  induction entries with
  | nil => simp at found
  | cons entry entries ih =>
    obtain ⟨other, stored⟩ := entry
    by_cases same : key = other
    · simp [same]
    · rw [List.lookup_cons, beq_eq_false_iff_ne.mpr same] at found
      exact List.mem_cons_of_mem other (ih found)

structure FileSource where
  read : Path → Except ReadFailure Bytes
  names : List Path
  listed : ∀ (path : Path) (contents : Bytes), read path.normal = .ok contents →
    path.normal ∈ names

namespace FileSource

/-- The contents of a file as text. -/
def readText (source : FileSource) (path : Path) : Except ReadFailure Text :=
  match source.read path with
  | .error failure => .error failure
  | .ok contents =>
    match Utf8.decode contents with
    | .ok text => .ok text
    | .error defect => .error (.notText defect)

theorem listed_of_readText {source : FileSource} {path : Path} {text : Text}
    (found : source.readText path.normal = .ok text) : path.normal ∈ source.names := by
  unfold readText at found
  split at found
  · cases found
  · next contents read => exact source.listed path contents read

end FileSource

/-- Files held in memory under their normal spellings, newest first. -/
structure MemoryFiles where
  entries : List (Path × Bytes)

namespace MemoryFiles

def empty : MemoryFiles := ⟨[]⟩

def insert (files : MemoryFiles) (path : Path) (contents : Bytes) : MemoryFiles :=
  ⟨(path.normal, contents) :: files.entries⟩

def ofList (files : List (Path × Bytes)) : MemoryFiles :=
  files.foldl (fun files (path, contents) => files.insert path contents) empty

def find? (files : MemoryFiles) (path : Path) : Option Bytes :=
  files.entries.lookup path.normal

def read (files : MemoryFiles) (path : Path) : Except ReadFailure Bytes :=
  match files.find? path with
  | some contents => .ok contents
  | none => .error (.missing path)

theorem find?_normal (files : MemoryFiles) (path : Path) :
    files.find? path.normal = files.find? path := by
  rw [find?, find?, Path.normal_normal]

def source (files : MemoryFiles) : FileSource where
  read := files.read
  names := files.entries.map Prod.fst
  listed := by
    intro path contents found
    unfold read at found
    split at found
    · next stored lookup =>
      rw [find?, Path.normal_normal] at lookup
      exact mem_of_lookup lookup
    · cases found

end MemoryFiles
end RemoteBoot
