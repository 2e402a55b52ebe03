import RemoteBoot.Image.Reader
import RemoteBoot.Proofs.Image.Layout

/-!
# Symbol tables that were written

Every name lies in its table where its symbol says.  Reading the symbols gives the named ones with
their values in their order, and looking a name up gives the value that stands last.
-/

set_option autoImplicit false

namespace RemoteBoot.Image

theorem terminated_text_at {file : Bytes} {offset : Nat} {text : Text} (clean : '\x00' ∉ text)
    (has : HasAt file offset (Utf8.encode text ++ [0])) :
    terminatedText (file.drop offset) = .ok text := by
  obtain ⟨back, rest⟩ := has.behind
  rw [rest, List.append_assoc, List.singleton_append]
  exact terminated_text_encode clean back

namespace Blueprint

/-- The symbols with the offsets of their names, the first name being at an offset. -/
def named : Nat → List (Text × Nat) → List (Nat × Text × Nat)
  | _, [] => []
  | offset, symbol :: symbols =>
    (offset, symbol) :: named (offset + (Utf8.encode symbol.1).length + 1) symbols

theorem map_snd_named (offset : Nat) (symbols : List (Text × Nat)) :
    (named offset symbols).map Prod.snd = symbols := by
  induction symbols generalizing offset with
  | nil => rfl
  | cons symbol symbols ih => rw [named, List.map_cons, ih]

theorem zip_name_offsets (offset : Nat) (symbols : List (Text × Nat)) :
    (nameOffsets offset (symbols.map Prod.fst)).zip (symbols.map Prod.snd) =
      (named offset symbols).map fun entry => (entry.1, entry.2.2) := by
  induction symbols generalizing offset with
  | nil => rfl
  | cons symbol symbols ih =>
      simp only [List.map_cons, nameOffsets, List.zip_cons_cons, named, ih]

theorem symbol_table_eq (symbols : List (Text × Nat)) :
    symbolTable symbols =
      (List.replicate 24 0 ::
        (named 1 symbols).map fun entry => symbolRecord entry.1 entry.2.2).flatten := by
  rw [symbolTable, zip_name_offsets, List.flatMap_map, List.flatten_cons, List.flatMap_def]

theorem sized_symbol_records (symbols : List (Text × Nat)) :
    ∀ record ∈ List.replicate 24 0 ::
      (named 1 symbols).map fun entry => symbolRecord entry.1 entry.2.2, record.length = 24 := by
  intro record member
  rcases List.mem_cons.mp member with rfl | later
  · rfl
  · obtain ⟨entry, -, rfl⟩ := List.mem_map.mp later
    exact length_symbol_record _ _

theorem symbol_table_whole (symbols : List (Text × Nat)) :
    (symbolTable symbols).length % 24 = 0 := by
  rw [symbol_table_eq, length_table (sized_symbol_records symbols)]
  exact Nat.mul_mod_left _ 24

theorem names_in_table (names : List Text) :
    HasAt (nameTable names) 1 (names.flatMap fun name => Utf8.encode name ++ [0]) :=
  ⟨[0], [], by rw [List.append_nil]; rfl, rfl⟩

/-- The name of a symbol and a zero byte lie at its offset. -/
theorem name_of_named {table : Bytes} {offset : Nat} {symbols : List (Text × Nat)}
    (has : HasAt table offset
      ((symbols.map Prod.fst).flatMap fun name => Utf8.encode name ++ [0])) :
    ∀ entry ∈ named offset symbols, HasAt table entry.1 (Utf8.encode entry.2.1 ++ [0]) := by
  induction symbols generalizing offset with
  | nil =>
      intro entry member
      cases member
  | cons symbol symbols ih =>
      rw [List.map_cons, List.flatMap_cons] at has
      obtain ⟨here, later⟩ := has.of_append
      rw [List.length_append, List.length_singleton, ← Nat.add_assoc] at later
      intro entry member
      rcases List.mem_cons.mp member with rfl | rest
      · exact here
      · exact ih later entry rest

/-- The entries of symbols for which the reader looks up names. -/
def definedEntries (offset : Nat) (symbols : List (Text × Nat)) : List SymbolEntry :=
  (named offset symbols).map fun entry => ⟨entry.1, 0xfff1, entry.2.2⟩

theorem entries_of_symbol_table {symbols : List (Text × Nat)}
    (offsets : ∀ entry ∈ named 1 symbols, entry.1 < 0x100000000)
    (values : ∀ entry ∈ named 1 symbols, entry.2.2 < 0x10000000000000000) :
    SymbolEntry.ofTable .wide (symbolTable symbols) = ⟨0, 0, 0⟩ :: definedEntries 1 symbols := by
  have blank : SymbolEntry.ofRecord .wide (List.replicate 24 0) = ⟨0, 0, 0⟩ := by decide
  rw [symbol_table_eq, of_table_flatten (sized_symbol_records symbols), List.map_cons, blank,
    List.map_map, definedEntries]
  refine congrArg _ (List.map_congr_left ?_)
  intro entry member
  exact symbol_of_record (offsets entry member) (values entry member)

theorem filter_defined (offset : Nat) (symbols : List (Text × Nat)) :
    (definedEntries offset symbols).filter (fun symbol => symbol.home ≠ 0) =
      definedEntries offset symbols := by
  rw [List.filter_eq_self]
  intro symbol member
  obtain ⟨entry, -, rfl⟩ := List.mem_map.mp member
  rfl

/-- The symbols that have a name. -/
def nameful (symbols : List (Text × Nat)) : List (Text × Nat) :=
  symbols.filter fun symbol => symbol.1 ≠ []

theorem nameful_of_named {symbol : Text × Nat} {symbols : List (Text × Nat)}
    (named : symbol.1 ≠ []) : nameful (symbol :: symbols) = symbol :: nameful symbols :=
  List.filter_cons_of_pos (by simpa using named)

theorem nameful_of_empty {symbol : Text × Nat} {symbols : List (Text × Nat)}
    (empty : symbol.1 = []) : nameful (symbol :: symbols) = nameful symbols :=
  List.filter_cons_of_neg (by simpa using empty)

theorem name_symbols_of_entries {table : Bytes} {offset : Nat} {symbols : List (Text × Nat)}
    (clean : ∀ symbol ∈ symbols, '\x00' ∉ symbol.1)
    (has : ∀ entry ∈ named offset symbols, HasAt table entry.1 (Utf8.encode entry.2.1 ++ [0])) :
    nameSymbols table (definedEntries offset symbols) = .ok (nameful symbols) := by
  induction symbols generalizing offset with
  | nil => rfl
  | cons symbol symbols ih =>
      have text := terminated_text_at (clean symbol List.mem_cons_self)
        (has (offset, symbol) List.mem_cons_self)
      have others := ih (fun later member => clean later (List.mem_cons_of_mem _ member))
        (fun entry member => has entry (List.mem_cons_of_mem _ member))
      change nameSymbols table (⟨offset, 0xfff1, symbol.2⟩ :: definedEntries _ symbols) = _
      simp only [nameSymbols, text, others, bind, Except.bind, pure, Except.pure]
      by_cases empty : symbol.1 = []
      · rw [if_pos empty, nameful_of_empty empty]
      · rw [if_neg empty, nameful_of_named empty]

/-- Of the symbols with a name, the last has a value. -/
def LastNamed (symbols : List (Text × Nat)) (name : Text) (value : Nat) : Prop :=
  ∃ front back, symbols = front ++ (name, value) :: back ∧ ∀ later ∈ back, later.1 ≠ name

theorem lookup_of_absent {symbols : List (Text × Nat)} {name : Text}
    (absent : ∀ symbol ∈ symbols, symbol.1 ≠ name) : symbols.lookup name = none := by
  rw [List.lookup_eq_none_iff]
  intro symbol member
  rw [bne_iff_ne]
  exact (absent symbol member).symm

theorem lookup_of_last_named {symbols : List (Text × Nat)} {name : Text} {value : Nat}
    (named : name ≠ []) (last : LastNamed symbols name value) :
    (nameful symbols).reverse.lookup name = some value := by
  obtain ⟨front, back, rfl, others⟩ := last
  have absent : (nameful back).reverse.lookup name = none := by
    apply lookup_of_absent
    intro symbol member
    exact others symbol (List.mem_filter.mp (List.mem_reverse.mp member)).1
  rw [nameful, List.filter_append, ← nameful, ← nameful, nameful_of_named named, List.reverse_append,
    List.reverse_cons, List.append_assoc, List.lookup_append, absent, Option.none_or,
    List.singleton_append, List.lookup_cons_self]

theorem lookup_of_nameless {symbols : List (Text × Nat)} {name : Text}
    (missing : name = [] ∨ ∀ symbol ∈ symbols, symbol.1 ≠ name) :
    (nameful symbols).reverse.lookup name = none := by
  apply lookup_of_absent
  intro symbol member
  obtain ⟨listed, nonempty⟩ := List.mem_filter.mp (List.mem_reverse.mp member)
  rcases missing with rfl | absent
  · exact of_decide_eq_true nonempty
  · exact absent symbol listed

end Blueprint
end RemoteBoot.Image
