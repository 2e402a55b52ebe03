import Mathlib.Data.List.Forall2
import Mathlib.Logic.Relation
import RemoteBoot.Proofs.Manifest.Contributions
import RemoteBoot.Proofs.Remote.Actions
import RemoteBoot.Proofs.Text.Utf8

/-!
# The layout of a manifest does not show

A continuation, which is a backslash and a line end, may stand anywhere in a text except where it
would tear another one apart, and line ends may be spelled with a carriage return.  Neither changes
the logical lines, and of its files an expansion sees nothing but their lines.  So a manifest parses
to the same steps, or to the same refusal, in every layout of it and of what it includes.
-/

set_option autoImplicit false

namespace RemoteBoot.Manifest

/-- No continuation is torn apart between the two parts of a text. -/
def Whole (front back : Text) : Prop :=
  ¬ (front.getLast? = some '\\' ∧ back.head? = some '\n')

instance (front back : Text) : Decidable (Whole front back) :=
  inferInstanceAs (Decidable (¬ _))

inductive Continued : Text → Text → Prop where
  | insert (front back : Text) (whole : Whole front back) :
      Continued (front ++ back) (front ++ '\\' :: '\n' :: back)

/-- Some line ends of a text are spelled with a carriage return. -/
inductive Respelled : Text → Text → Prop where
  | done : Respelled [] []
  | kept {text other : Text} (character : Char) (rest : Respelled text other) :
      Respelled (character :: text) (character :: other)
  | widened {text other : Text} (rest : Respelled text other) :
      Respelled ('\n' :: text) ('\r' :: '\n' :: other)

/-- Any number of continuations is put into a text, one after another, and then line ends are spelled
with a carriage return, those of the continuations among them. -/
def Relaid (text other : Text) : Prop :=
  ∃ middle, Relation.ReflTransGen Continued text middle ∧ Respelled middle other

section Lines

variable {text other : Text}

theorem join_continued_cons {character : Char} {rest : Text}
    (single : ¬ (character = '\\' ∧ rest.head? = some '\n')) :
    joinContinued (character :: rest) = character :: joinContinued rest := by
  rw [joinContinued]
  rintro following rfl rfl
  exact single ⟨rfl, rfl⟩

theorem Whole.of_cons {character : Char} {front back : Text} (whole : Whole (character :: front) back) :
    Whole front back := by
  rintro ⟨last, head⟩
  exact whole ⟨by rw [List.getLast?_cons, last, Option.getD_some], head⟩

/-- A character that begins no continuation begins none in front of further text either, unless the
place is torn. -/
theorem single_append {character : Char} {rest back : Text}
    (single : ∀ following, character = '\\' → rest = '\n' :: following → False)
    (whole : Whole (character :: rest) back) :
    ¬ (character = '\\' ∧ (rest ++ back).head? = some '\n') := by
  rintro ⟨rfl, head⟩
  cases rest with
  | nil => exact whole ⟨rfl, head⟩
  | cons second rest =>
      rw [List.cons_append, List.head?_cons, Option.some.injEq] at head
      exact single rest rfl (by rw [head])

theorem join_continued_insert {front back : Text} (whole : Whole front back) :
    joinContinued (front ++ '\\' :: '\n' :: back) = joinContinued (front ++ back) := by
  induction front using joinContinued.induct with
  | case1 rest ih =>
      -- A continuation in front of the place goes in both texts.
      simpa only [List.cons_append, joinContinued] using ih whole.of_cons.of_cons
  | case2 character rest single ih =>
      have before : Whole (character :: rest) ('\\' :: '\n' :: back) := by
        rintro ⟨_, head⟩
        cases head
      rw [List.cons_append, List.cons_append, join_continued_cons (single_append single before),
        join_continued_cons (single_append single whole), ih whole.of_cons]
  | case3 => rfl

/-- Between the backslash and the line end of a continuation there is no place for another. -/
example : joinContinued "a\\\\\n\nb".toList ≠ joinContinued "a\\\nb".toList := by
  decide

theorem join_continued_of_continued (continued : Relation.ReflTransGen Continued text other) :
    joinContinued other = joinContinued text := by
  induction continued with
  | refl => rfl
  | tail _ last ih =>
      cases last with
      | insert front back whole => rw [join_continued_insert whole, ih]

theorem clean_of_continued (clean : '\r' ∉ text)
    (continued : Relation.ReflTransGen Continued text other) : '\r' ∉ other := by
  induction continued with
  | refl => exact clean
  | tail _ last ih =>
      cases last with
      | insert front back whole => simpa using ih

theorem unify_of_respelled (clean : '\r' ∉ text) (respelled : Respelled text other) :
    unifyLineEnds other = text := by
  induction respelled with
  | done => rfl
  | kept character rest ih =>
      obtain ⟨differs, clean⟩ := not_or.mp (mt List.mem_cons.mpr clean)
      rw [unifyLineEnds, ih clean]
      rintro following rfl
      exact absurd rfl differs
  | widened rest ih =>
      obtain ⟨_, clean⟩ := not_or.mp (mt List.mem_cons.mpr clean)
      rw [unifyLineEnds, ih clean]

theorem Respelled.refl (text : Text) : Respelled text text := by
  induction text with
  | nil => exact .done
  | cons character text ih => exact .kept character ih

theorem lines_of_relaid (clean : '\r' ∉ text) (relaid : Relaid text other) :
    lines other = lines text := by
  obtain ⟨middle, continued, respelled⟩ := relaid
  have own := unify_of_respelled clean (.refl text)
  have widened := unify_of_respelled (clean_of_continued clean continued) respelled
  rw [lines, logicalLines, widened, join_continued_of_continued continued, lines, logicalLines, own]

end Lines

section Sources

variable {source other : FileSource}

/-- What a file of one source is in the other: the same, or a text in another layout. -/
inductive SameFile : Except ReadFailure Bytes → Except ReadFailure Bytes → Prop where
  | same (contents : Except ReadFailure Bytes) : SameFile contents contents
  | relaid {text other : Text} (clean : '\r' ∉ text) (relaid : Relaid text other) :
      SameFile (.ok (Utf8.encode text)) (.ok (Utf8.encode other))

/-- Two sources with the same files, any of which may have texts in different layouts. -/
def SameButLayout (source other : FileSource) : Prop :=
  ∀ file, SameFile (source.read file) (other.read file)

/-- Files in memory under the same spellings are related, path by path, if their contents are. -/
theorem read_of_alike {Related : Except ReadFailure Bytes → Except ReadFailure Bytes → Prop}
    (missing : ∀ contents, Related contents contents) {entries others : List (Path × Bytes)}
    (alike : List.Forall₂ (fun entry other => other.1 = entry.1 ∧ Related (.ok entry.2) (.ok other.2))
      entries others) (file : Path) :
    Related ((MemoryFiles.mk entries).source.read file) ((MemoryFiles.mk others).source.read file) := by
  change Related (MemoryFiles.read ⟨entries⟩ file) (MemoryFiles.read ⟨others⟩ file)
  rw [MemoryFiles.read, MemoryFiles.read, MemoryFiles.find?, MemoryFiles.find?]
  induction alike with
  | nil => exact missing _
  | @cons entry other entries others alike _ ih =>
      obtain ⟨path, contents⟩ := entry
      obtain ⟨_, contentsThen⟩ := other
      obtain ⟨rfl, files⟩ := alike
      rw [List.lookup_cons, List.lookup_cons]
      cases file.normal == _ with
      | true => exact files
      | false => exact ih

theorem same_but_layout_of_entries {entries others : List (Path × Bytes)}
    (alike : List.Forall₂
      (fun entry other => other.1 = entry.1 ∧ SameFile (.ok entry.2) (.ok other.2)) entries others) :
    SameButLayout (MemoryFiles.mk entries).source (MemoryFiles.mk others).source :=
  read_of_alike SameFile.same alike

/-- Every file that both sources have as text has the same lines in both. -/
def SameLines (source other : FileSource) : Prop :=
  ∀ file, (other.readText file).map lines = (source.readText file).map lines

theorem read_text_of_encode {file : Path} {text : Text}
    (held : source.read file = .ok (Utf8.encode text)) : source.readText file = .ok text := by
  rw [FileSource.readText, held]
  simp only [Utf8.decode_encode]

theorem same_lines_of_layout (alike : SameButLayout source other) : SameLines source other := by
  intro file
  have files := alike file
  generalize held : source.read file = contents at files
  generalize heldThen : other.read file = contentsThen at files
  cases files with
  | same => rw [FileSource.readText, FileSource.readText, held, heldThen]
  | relaid clean relaid =>
      rw [read_text_of_encode held, read_text_of_encode heldThen]
      exact congrArg Except.ok (lines_of_relaid clean relaid)

/-- An expansion sees the lines of a file and nothing else of it. -/
theorem expand_lines (source : FileSource) (chain : List Path) (name root : Path) :
    expand source chain name root =
      let file := (root.join name).normal
      if file ∈ chain then Noted.fail (.manifest file (.includeCycle file))
      else
        match (source.readText file).map lines with
        | .error failure => Noted.fail (.manifest file (.unreadable failure))
        | .ok lines => (do
          Noted.note .debug .manifest ("reading manifest " ++ file.toString)
          entriesOf (expand source (file :: chain)) file root lines) := by
  rw [expand]
  by_cases onChain : (root.join name).normal ∈ chain
  · simp only [dif_pos onChain, if_pos onChain]
  · simp only [dif_neg onChain, if_neg onChain]
    split
    · next failure read => rw [read]; rfl
    · next text read => rw [read]; rfl

theorem expand_of_same_lines (same : SameLines source other) (chain : List Path)
    (name root : Path) : expand other chain name root = expand source chain name root := by
  induction chain using chain_induction source generalizing name root with
  | down chain ih =>
      let top : Reference := ⟨name, root⟩
      rw [expand_lines, expand_lines]
      by_cases onChain : (root.join name).normal ∈ chain
      · simp only [if_pos onChain]
      · simp only [if_neg onChain, same (root.join name).normal]
        cases read : source.readText (root.join name).normal with
        | error failure => rfl
        | ok text =>
            have entered : top.enter source chain = .ok text := enter_ok.mpr ⟨onChain, read⟩
            have inside : expand other (top.file :: chain) = expand source (top.file :: chain) := by
              funext inner current
              exact ih top text entered inner current
            exact congrArg (fun splice => Noted.note _ _ _ >>= fun _ => entriesOf splice _ _ _) inside

/-- Whatever continuations and carriage returns are put into the texts of a source, a manifest
parses to the same steps or the same refusal, with the same notes. -/
theorem layout_is_invisible (alike : SameButLayout source other) (name root : Path) :
    parse other name root = parse source name root :=
  expand_of_same_lines (same_lines_of_layout alike) [] name root

end Sources

def including (outer inner : String) : FileSource :=
  (MemoryFiles.mk [
    (.ofString "/boot/a.conf", Utf8.encode outer.toList),
    (.ofString "/boot/b.conf", Utf8.encode inner.toList)]).source

/-- Continuations inside the words, a path and a number, one of them behind another, and carriage
returns at some of the line ends. -/
theorem spread_texts_parse_alike :
    let plain := including "load k\nconf b.conf\n" "addr 20\n"
    let spread := including "lo\\\r\n\\\nad k\nconf b\\\n.conf\r\n" "addr 2\\\r\n0\n"
    SameButLayout plain spread ∧
      parse spread (.ofString "a.conf") (.ofString "/boot") =
        parse plain (.ofString "a.conf") (.ofString "/boot") ∧
      (parse plain (.ofString "a.conf") (.ofString "/boot")).result =
        .ok [.load (.ofString "/boot/k") ['k'], .address 0x20] := by
  intro plain spread
  have outer : Relaid "load k\nconf b.conf\n".toList
      "lo\\\r\n\\\nad k\nconf b\\\n.conf\r\n".toList := by
    have first : Continued "load k\nconf b.conf\n".toList _ :=
      .insert "lo".toList "ad k\nconf b.conf\n".toList (by decide)
    have second : Continued "lo\\\nad k\nconf b.conf\n".toList _ :=
      .insert "lo\\\n".toList "ad k\nconf b.conf\n".toList (by decide)
    have third : Continued "lo\\\n\\\nad k\nconf b.conf\n".toList _ :=
      .insert "lo\\\n\\\nad k\nconf b".toList ".conf\n".toList (by decide)
    exact ⟨_, ((Relation.ReflTransGen.single first).tail second).tail third, by repeat constructor⟩
  have inner : Relaid "addr 20\n".toList "addr 2\\\r\n0\n".toList := by
    have put : Continued "addr 20\n".toList _ :=
      .insert "addr 2".toList "0\n".toList (by decide)
    exact ⟨_, .single put, by repeat constructor⟩
  have alike : SameButLayout plain spread := by
    apply same_but_layout_of_entries
    exact .cons ⟨rfl, .relaid (by decide) outer⟩ (.cons ⟨rfl, .relaid (by decide) inner⟩ .nil)
  exact ⟨alike, layout_is_invisible alike _ _, ok_of_to_option (by decide +kernel)⟩

end RemoteBoot.Manifest
