import RemoteBoot.Image.Reader

/-!
# What an image reader relies on

The reader takes headers and contents out of a file as if they were there, and crashes if they are
not.  Each of its steps is what it gives together with the condition that it relies on; a list of
steps relies on all of theirs.
-/

set_option autoImplicit false

namespace RemoteBoot.Image

variable {α β : Type}

def Crashed (result : Except Stop α) : Prop :=
  ∃ crash, result = .error (.crash crash)

theorem crashed_bind {first : Except Stop α} {next : α → Except Stop β} :
    Crashed (first >>= next) ↔ Crashed first ∨ ∃ value, first = .ok value ∧ Crashed (next value) := by
  rcases first with stop | value
  · constructor
    · rintro ⟨crash, crashed⟩
      cases crashed
      exact Or.inl ⟨crash, rfl⟩
    · rintro (⟨crash, crashed⟩ | ⟨value, reached, _⟩)
      · cases crashed
        exact ⟨crash, rfl⟩
      · cases reached
  · constructor
    · intro crashed
      exact Or.inr ⟨value, rfl, crashed⟩
    · rintro (⟨crash, crashed⟩ | ⟨other, reached, crashed⟩)
      · cases crashed
      · cases reached
        exact crashed

theorem not_crashed_ok (value : α) : ¬ Crashed (.ok value : Except Stop α) := by
  rintro ⟨crash, crashed⟩
  cases crashed

theorem crashed_error {stop : Stop} :
    Crashed (.error stop : Except Stop α) ↔ ∃ crash, stop = .crash crash := by
  simp only [Crashed, Except.error.injEq]

theorem not_crashed_rejected (name reason : String) :
    ¬ Crashed (rejected name reason : Except Stop α) := by
  rintro ⟨crash, crashed⟩
  cases crashed

/-- What a reader gives that relies on a condition. -/
def relying (condition : Prop) [Decidable condition] (value : α) : Except Stop α :=
  if condition then .ok value else .error (.crash .brokenImage)

theorem crashed_relying (condition : Prop) [Decidable condition] (value : α) :
    Crashed (relying condition value) ↔ ¬ condition := by
  unfold relying
  split
  · next holds => exact iff_of_false (not_crashed_ok value) (not_not_intro holds)
  · next fails => exact iff_of_true ⟨_, rfl⟩ fails

theorem relying_ok {condition : Prop} [Decidable condition] {value other : α} :
    relying condition value = .ok other ↔ condition ∧ value = other := by
  unfold relying
  split
  · next holds => simp only [holds, Except.ok.injEq, true_and]
  · next fails => simp only [fails, reduceCtorEq, false_and]

/-- A list of readers relies on all their conditions. -/
theorem map_m_relying {condition : α → Prop} [DecidablePred condition] {value : α → β}
    {read : α → Except Stop β} (reads : ∀ item, read item = relying (condition item) (value item))
    (items : List α) :
    items.mapM read = relying (∀ item ∈ items, condition item) (items.map value) := by
  induction items with
  | nil => rw [List.mapM_nil, relying, if_pos (by simp)]; rfl
  | cons item items ih =>
      rw [List.mapM_cons, ih, reads]
      by_cases first : condition item
      · by_cases others : ∀ other ∈ items, condition other
        · have all : ∀ other ∈ item :: items, condition other :=
            List.forall_mem_cons.mpr ⟨first, others⟩
          simp only [relying, if_pos first, if_pos others, if_pos all, List.map_cons, bind,
            Except.bind, pure, Except.pure]
        · have fails : ¬ ∀ other ∈ item :: items, condition other := fun all =>
            others (List.forall_mem_cons.mp all).2
          simp only [relying, if_pos first, if_neg others, if_neg fails, bind, Except.bind]
      · have fails : ¬ ∀ other ∈ item :: items, condition other := fun all =>
          first (List.forall_mem_cons.mp all).1
        simp only [relying, if_neg first, if_neg fails, bind, Except.bind]

theorem for_m_relying {condition : α → Prop} [DecidablePred condition]
    {check : α → Except Stop Unit} (checks : ∀ item, check item = relying (condition item) ())
    (items : List α) : items.forM check = relying (∀ item ∈ items, condition item) () := by
  induction items with
  | nil => exact (if_pos (by simp)).symm
  | cons item items ih =>
      change (check item >>= fun _ => items.forM check) = _
      rw [ih, checks]
      by_cases first : condition item
      · simp only [relying, bind, Except.bind, List.forall_mem_cons, first, true_and, if_true]
      · have fails : ¬ ∀ other ∈ item :: items, condition other := fun all =>
          first (List.forall_mem_cons.mp all).1
        simp only [relying, if_neg first, if_neg fails, bind, Except.bind]

/-- The entry of a table of headers is long enough, starts at a multiple of the address width and
lies in the file. -/
structure Readable (file : Bytes) (format : Class) (offset size least index : Nat) : Prop where
  long : least ≤ size
  aligned : (offset + index * size) % format.addressWidth = 0
  inside : offset + index * size + size ≤ file.length

instance (file : Bytes) (format : Class) (offset size least index : Nat) :
    Decidable (Readable file format offset size least index) :=
  decidable_of_iff (least ≤ size ∧ (offset + index * size) % format.addressWidth = 0 ∧
      offset + index * size + size ≤ file.length)
    ⟨fun ⟨long, aligned, inside⟩ => ⟨long, aligned, inside⟩,
      fun readable => ⟨readable.long, readable.aligned, readable.inside⟩⟩

def entryAt (file : Bytes) (offset size index : Nat) : Bytes :=
  (file.drop (offset + index * size)).take size

theorem table_entry_eq (file : Bytes) (format : Class) (offset size least index : Nat) :
    tableEntry? file format offset size least index =
      if Readable file format offset size least index then some (entryAt file offset size index)
      else none := by
  simp only [ tableEntry?, slice?, entryAt]
  by_cases readable : Readable file format offset size least index
  · rw [if_pos readable, if_pos ⟨readable.long, readable.aligned⟩, if_pos readable.inside]
  · rw [if_neg readable]
    split
    · next held =>
        rw [if_neg fun inside => readable ⟨held.1, held.2, inside⟩]
    · rfl

section Headers

variable (file : Bytes) (header : FileHeader)

def ProgramHeader.Readable (index : Nat) : Prop :=
  Image.Readable file header.format header.programOffset header.programSize
    header.format.programHeaderSize index

instance : DecidablePred (ProgramHeader.Readable file header) := fun _ =>
  inferInstanceAs (Decidable (Image.Readable _ _ _ _ _ _))

def ProgramHeader.ofIndex (index : Nat) : ProgramHeader :=
  .ofRecord header.format (entryAt file header.programOffset header.programSize index)

theorem ProgramHeader.read_eq (index : Nat) :
    read file header index = relying (Readable file header index) (.ofIndex file header index) := by
  rw [read, table_entry_eq, relying]
  by_cases readable : Readable file header index
  · rw [if_pos readable, if_pos (show Image.Readable _ _ _ _ _ _ from readable), ofIndex]
  · rw [if_neg readable, if_neg (show ¬ Image.Readable _ _ _ _ _ _ from readable)]

def SectionHeader.Readable (index : Nat) : Prop :=
  index < reserved ∧ Image.Readable file header.format header.sectionOffset header.sectionSize
    header.format.sectionHeaderSize index

instance : DecidablePred (SectionHeader.Readable file header) := fun _ =>
  inferInstanceAs (Decidable (_ ∧ _))

def SectionHeader.ofIndex (index : Nat) : SectionHeader :=
  .ofRecord header.format (entryAt file header.sectionOffset header.sectionSize index)

theorem SectionHeader.read_eq (index : Nat) :
    read file header index = relying (Readable file header index) (.ofIndex file header index) := by
  rw [read, table_entry_eq, relying]
  by_cases ordinary : index < reserved
  · rw [if_neg (Nat.not_le.mpr ordinary)]
    by_cases readable : Readable file header index
    · simp only [if_pos readable, if_pos readable.2, ofIndex]
    · have unreadable := fun table => readable ⟨ordinary, table⟩
      simp only [if_neg readable, if_neg unreadable]
  · rw [if_pos (Nat.not_lt.mp ordinary), if_neg fun readable => ordinary readable.1]

end Headers

namespace SectionHeader

def bytes (file : Bytes) (section_ : SectionHeader) : Bytes :=
  (file.drop section_.offset).take section_.size

/-- The contents of a section are what its kind demands. -/
def Sound (file : Bytes) (format : Class) (section_ : SectionHeader) : Prop :=
  match demands format section_.kind with
  | .ignored => True
  | .checked least alignment skipped entrySize =>
    section_.offset + section_.size ≤ file.length ∧ least ≤ section_.size ∧
      section_.offset % alignment = 0 ∧ (section_.size - skipped) % entrySize = 0

instance (file : Bytes) (format : Class) : DecidablePred (Sound file format) := fun section_ =>
  match demanded : demands format section_.kind with
  | .ignored => isTrue (by rw [Sound, demanded]; trivial)
  | .checked least alignment skipped entrySize =>
    decidable_of_iff (section_.offset + section_.size ≤ file.length ∧ least ≤ section_.size ∧
        section_.offset % alignment = 0 ∧ (section_.size - skipped) % entrySize = 0)
      (by rw [Sound, demanded])

theorem contents_eq (file : Bytes) (section_ : SectionHeader) :
    contents file section_ =
      relying (section_.offset + section_.size ≤ file.length) (section_.bytes file) := by
  rw [contents, slice?, relying]
  by_cases inside : section_.offset + section_.size ≤ file.length
  · simp only [if_pos inside, bytes]
  · simp only [if_neg inside]

theorem check_eq (file : Bytes) (format : Class) (section_ : SectionHeader) :
    check file format section_ = relying (section_.Sound file format) () := by
  rw [check]
  cases demanded : demands format section_.kind with
  | ignored =>
      have sound : section_.Sound file format := by
        rw [Sound, demanded]
        trivial
      exact (if_pos sound).symm
  | checked least alignment skipped entrySize =>
      have iff : section_.Sound file format ↔ section_.offset + section_.size ≤ file.length ∧
          least ≤ section_.size ∧ section_.offset % alignment = 0 ∧
          (section_.size - skipped) % entrySize = 0 := by
        rw [Sound, demanded]
      simp only [contents_eq, relying, iff]
      by_cases inside : section_.offset + section_.size ≤ file.length
      · simp only [inside, if_true, bind, Except.bind, true_and]
        rfl
      · simp only [inside, if_false, bind, Except.bind, false_and]

/-- Sections with symbols or strings have all their contents. -/
theorem inside_of_sound {file : Bytes} {format : Class} {section_ : SectionHeader}
    (sound : section_.Sound file format)
    (kind : section_.kind = symbolKind ∨ section_.kind = stringKind) :
    section_.offset + section_.size ≤ file.length := by
  rcases kind with symbols | strings
  · rw [Sound, symbols] at sound
    exact sound.1
  · rw [Sound, strings] at sound
    exact sound.1

end SectionHeader

end RemoteBoot.Image
