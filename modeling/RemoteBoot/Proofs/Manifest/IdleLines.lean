import RemoteBoot.Proofs.Manifest.CommandLines
import RemoteBoot.Proofs.Manifest.Layout

/-!
# Lines that ask for nothing

A line without a directive that is known, or with a module directive and no file, may stand in front
of any physical line of a text, unless that line continues the one before.  It is one more logical
line there, and what the lines of the text come to is the same without it.
-/

set_option autoImplicit false

namespace RemoteBoot.Manifest

/-- A line without its comment and the blanks around it. -/
def bare (line : Text) : Text :=
  Blank.trim (line.takeWhile fun character => character ≠ '#')

def directives : List Text :=
  ["root".toList, "load".toList, "exec".toList, "conf".toList, "addr".toList]

/-- A physical line that asks for nothing: it has no word, an unknown first word, or just the word of
a module directive.  It does not reach into the line behind. -/
structure Idle (line : Text) : Prop where
  single : '\n' ∉ line
  plain : '\r' ∉ line
  closed : line.getLast? ≠ some '\\'
  nothing : bare line = [] ∨ Blank.firstWord (bare line) ∉ directives ∨
    bare line = "load".toList ∨ bare line = "exec".toList

/-- A physical line begins behind this part of a text, and it does not continue the line before. -/
def Begins (front : Text) : Prop :=
  front = [] ∨ ∃ before, front = before ++ ['\n'] ∧ before.getLast? ≠ some '\\' ∧
    ¬ ['\\', '\r'] <:+ before

/-- No line end of two characters is torn apart between the two parts of a text. -/
def Unsplit (front back : Text) : Prop :=
  ¬ (front.getLast? = some '\r' ∧ back.head? = some '\n')

section Lines

theorem Unsplit.of_cons {character : Char} {front back : Text}
    (unsplit : Unsplit (character :: front) back) : Unsplit front back := by
  intro both
  exact unsplit ⟨by rw [List.getLast?_cons, both.1, Option.getD_some], both.2⟩

theorem unify_append {front back : Text} (unsplit : Unsplit front back) :
    unifyLineEnds (front ++ back) = unifyLineEnds front ++ unifyLineEnds back := by
  induction front using unifyLineEnds.induct with
  | case1 rest ih =>
      simpa only [List.cons_append, unifyLineEnds, List.cons.injEq, true_and] using
        ih unsplit.of_cons.of_cons
  | case2 character rest single ih =>
      have outer : ∀ following, character = '\r' → rest ++ back = '\n' :: following → False := by
        rintro following rfl begins
        -- A pair across the two parts would be torn; a pair inside is the case above.
        cases rest with
        | nil =>
            rw [List.nil_append] at begins
            exact unsplit ⟨rfl, by rw [begins, List.head?_cons]⟩
        | cons second rest =>
            obtain ⟨rfl, _⟩ := List.cons.inj begins
            exact single rest rfl rfl
      rw [List.cons_append, unifyLineEnds, unifyLineEnds, ih unsplit.of_cons, List.cons_append]
      · exact single
      · exact outer
  | case3 => rfl

theorem last_unify (text : Text) : (unifyLineEnds text).getLast? = text.getLast? := by
  induction text using unifyLineEnds.induct with
  | case1 rest ih =>
      rw [unifyLineEnds, List.getLast?_cons, ih, List.getLast?_cons_cons, List.getLast?_cons]
  | case2 character rest single ih =>
      rw [unifyLineEnds, List.getLast?_cons, List.getLast?_cons, ih]
      exact single
  | case3 => rfl

theorem unify_of_plain {text : Text} (plain : '\r' ∉ text) : unifyLineEnds text = text :=
  unify_of_respelled plain (.refl text)

theorem join_append {front back : Text} (whole : Whole front back) :
    joinContinued (front ++ back) = joinContinued front ++ joinContinued back := by
  induction front using joinContinued.induct with
  | case1 rest ih => simpa only [List.cons_append, joinContinued] using ih whole.of_cons.of_cons
  | case2 character rest single ih =>
      have alone : ¬ (character = '\\' ∧ rest.head? = some '\n') := by
        rintro ⟨rfl, head⟩
        cases rest with
        | nil => cases head
        | cons second rest =>
            rw [List.head?_cons, Option.some.injEq] at head
            exact single rest rfl (by rw [head])
      rw [List.cons_append, join_continued_cons (single_append single whole),
        join_continued_cons alone, ih whole.of_cons, List.cons_append]
  | case3 => rfl

theorem join_of_single {text : Text} (single : '\n' ∉ text) : joinContinued text = text := by
  induction text with
  | nil => rfl
  | cons character text ih =>
      obtain ⟨_, behind⟩ := not_or.mp (mt List.mem_cons.mpr single)
      have alone : ¬ (character = '\\' ∧ text.head? = some '\n') := fun both =>
        behind (List.mem_of_head? both.2)
      rw [join_continued_cons alone, ih behind]

theorem join_line_end (text : Text) : joinContinued ('\n' :: text) = '\n' :: joinContinued text :=
  join_continued_cons fun both => by cases both.1

theorem unify_line_end (text : Text) : unifyLineEnds ('\n' :: text) = '\n' :: unifyLineEnds text := by
  rw [unifyLineEnds]
  intro following differs
  cases differs

theorem split_append (separator : Char) (text other : Text) :
    Path.splitAt separator (text ++ separator :: other) =
      Path.splitAt separator text ++ Path.splitAt separator other := by
  induction text with
  | nil => simp [Path.splitAt]
  | cons character text ih =>
      rw [List.cons_append, Path.splitAt, Path.splitAt, ih]
      split
      · rfl
      · cases split : Path.splitAt separator text with
        | nil => exact absurd split (Path.splitAt_ne_nil separator text)
        | cons first parts => rfl

/-- The line end in front of a physical line is not joined. -/
theorem unify_of_begins {before : Text} (unescaped : before.getLast? ≠ some '\\')
    (unescapedToo : ¬ ['\\', '\r'] <:+ before) :
    ∃ kept, unifyLineEnds (before ++ ['\n']) = kept ++ ['\n'] ∧ kept.getLast? ≠ some '\\' := by
  -- A return in front of the line end is part of it, so the character in front of that one counts.
  by_cases returns : before.getLast? = some '\r'
  · obtain ⟨front, rfl⟩ := List.getLast?_eq_some_iff.mp returns
    refine ⟨unifyLineEnds front, ?_, ?_⟩
    · rw [List.append_assoc, unify_append]
      · rfl
      · rintro ⟨_, head⟩
        cases head
    · rw [last_unify]
      intro last
      obtain ⟨further, rfl⟩ := List.getLast?_eq_some_iff.mp last
      exact unescapedToo ⟨further, by rw [List.append_assoc]; rfl⟩
  · refine ⟨unifyLineEnds before, ?_, ?_⟩
    · rw [unify_append fun both => returns both.1]
      rfl
    · rw [last_unify]
      exact unescaped

theorem logical_lines_eq (text : Text) :
    logicalLines text = (Path.splitAt '\n' (joinContinued (unifyLineEnds text))).map bare := rfl

/-- What stands in front of a physical line has its logical lines, whatever follows. -/
theorem logical_of_begins {front : Text} (begins : Begins front) :
    ∃ above, ∀ back, logicalLines (front ++ back) = above ++ logicalLines back := by
  rcases begins with rfl | ⟨before, rfl, unescaped, unescapedToo⟩
  · exact ⟨[], fun back => rfl⟩
  · obtain ⟨kept, unified, closed⟩ := unify_of_begins unescaped unescapedToo
    refine ⟨(Path.splitAt '\n' (joinContinued kept)).map bare, fun back => ?_⟩
    have ended : (before ++ ['\n']).getLast? ≠ some '\r' := by
      rw [List.getLast?_concat]
      decide
    rw [logical_lines_eq, unify_append fun both => ended both.1, unified, List.append_assoc,
      join_append fun both => closed both.1, List.singleton_append, join_line_end, split_append,
      List.map_append, logical_lines_eq]

theorem logical_of_idle {line : Text} (idle : Idle line) (back : Text) :
    logicalLines (line ++ '\n' :: back) = bare line :: logicalLines back := by
  have plain : line.getLast? ≠ some '\r' := fun last => idle.plain (List.mem_of_getLast? last)
  rw [logical_lines_eq, unify_append fun both => plain both.1, unify_of_plain idle.plain,
    unify_line_end, join_append fun both => idle.closed both.1, join_of_single idle.single,
    join_line_end, split_append, Path.splitAt_of_not_mem idle.single, List.map_append,
    logical_lines_eq]
  rfl

theorem lines_insert {front line : Text} (begins : Begins front) (idle : Idle line) (back : Text) :
    ∃ above, lines (front ++ back) = above ++ lines back ∧
      lines (front ++ (line ++ '\n' :: back)) = above ++ Line.ofText (bare line) :: lines back := by
  obtain ⟨above, split⟩ := logical_of_begins begins
  refine ⟨above.map Line.ofText, ?_, ?_⟩
  · rw [lines, split, List.map_append, lines]
  · rw [lines, split, logical_of_idle idle, List.map_append, List.map_cons, lines]

/-- A trimmed line with an unknown first word is for other readers. -/
theorem of_text_unknown {text : Text} (some : Blank.trim text ≠ [])
    (unknown : Blank.firstWord (Blank.trim text) ∉ directives) :
    Line.ofText (Blank.trim text) = .unknown (Blank.trim text) := by
  have word : (Blank.cut (Blank.trim text)).1 = Blank.firstWord (Blank.trim text) := by
    rw [Blank.firstWord, Blank.trim_left_trim, Blank.cut]
  simp only [directives, List.mem_cons, List.not_mem_nil, or_false, not_or] at unknown
  obtain ⟨(root : _ ≠ Line.rootWord), load, exec, (conf : _ ≠ Line.spliceWord),
    (addr : _ ≠ Line.addressWord)⟩ := unknown
  have module : ¬ Line.moduleWords.contains (Blank.firstWord (Blank.trim text)) = true := by
    intro contained
    rcases List.mem_cons.mp (List.contains_iff_mem.mp contained) with same | other
    · exact exec same
    · exact load (List.mem_singleton.mp other)
  rw [Line.ofText, if_neg some]
  change Line.ofWord _ (Blank.cut (Blank.trim text)).1 _ = _
  rw [word, Line.ofWord, if_neg root, if_neg module, if_neg conf, if_neg addr]

/-- A line that asks for nothing contributes nothing and sets no root. -/
theorem contribution_of_idle {line : Text} (idle : Idle line) (file root : Path) :
    (Line.ofText (bare line)).contribution file root = .nothing ∧
      (Line.ofText (bare line)).rebase root = root := by
  by_cases empty : bare line = []
  · rw [empty]
    exact ⟨rfl, rfl⟩
  · rcases idle.nothing with none | unknown | load | exec
    · exact absurd none empty
    · rw [bare, of_text_unknown empty unknown]
      exact ⟨rfl, rfl⟩
    · rw [load]
      exact ⟨rfl, rfl⟩
    · rw [exec]
      exact ⟨rfl, rfl⟩

theorem gather_insert (splice : Reference → Except Stop (List Entry)) {line : Text} (idle : Idle line)
    (file root : Path) (above below : List Line) :
    gather splice (contributions file root (above ++ Line.ofText (bare line) :: below)) =
      gather splice (contributions file root (above ++ below)) := by
  induction above generalizing root with
  | nil =>
      obtain ⟨nothing, kept⟩ := contribution_of_idle idle file root
      rw [List.nil_append, List.nil_append, contributions, nothing, kept, gather]
      exact map_nil_append _
  | cons first above ih =>
      rw [List.cons_append, List.cons_append, contributions, contributions, gather, gather, ih]

end Lines

end RemoteBoot.Manifest
