import Mathlib.Data.List.TakeWhile
import RemoteBoot.Proofs.Manifest.Traversal

/-!
# The command lines of modules

A module that a manifest asks for has a command line of at least one word, without a comment or a
line end and without blanks around it.  Its file is the first word below the root in effect at its
line, which is read off the open files: each was opened under the root of the file around it and may
have set roots of its own since.
-/

set_option autoImplicit false

namespace RemoteBoot

namespace Blank

theorem trim_left_eq_self {text : Text} (dark : ∀ first, text.head? = some first → isBlank first = false) :
    trimLeft text = text := by
  cases text with
  | nil => rfl
  | cons first rest => rw [trimLeft, List.dropWhile_cons, dark first rfl, if_neg Bool.false_ne_true]

theorem front_trim_right (text : Text) : trimRight text <+: text := by
  have behind := List.reverse_prefix.mpr (List.dropWhile_suffix isBlank (l := text.reverse))
  rwa [List.reverse_reverse] at behind

theorem head_trim_left (text : Text) {first : Char} (head : (trimLeft text).head? = some first) :
    isBlank first = false := by
  have dark := List.head?_dropWhile_not isBlank text
  rw [trimLeft] at head
  rw [head] at dark
  exact dark

theorem trim_left_trim_left (text : Text) : trimLeft (trimLeft text) = trimLeft text :=
  trim_left_eq_self fun _ head => head_trim_left text head

/-- What is behind the front of a trimmed text went with the blanks behind. -/
theorem trim_left_trim (text : Text) : trimLeft (trim text) = trim text := by
  apply trim_left_eq_self
  intro first head
  obtain ⟨back, whole⟩ := front_trim_right (trimLeft text)
  apply head_trim_left text
  rw [← whole, List.head?_append, ← trim, head, Option.some_or]

theorem trim_trim (text : Text) : trim (trim text) = trim text := by
  have again := trim_left_trim_left (trimLeft text).reverse
  rw [trim, trim_left_trim, trim, trimRight, trimRight, List.reverse_reverse]
  exact congrArg List.reverse again

theorem mem_of_mem_trim {character : Char} {text : Text} (member : character ∈ trim text) :
    character ∈ text :=
  (List.dropWhile_suffix isBlank).subset ((front_trim_right _).subset member)

end Blank

namespace Manifest

/-- A command line as modules are given it. -/
structure IsCommandLine (commandLine : Text) : Prop where
  filled : commandLine ≠ []
  trimmed : Blank.trim commandLine = commandLine
  uncommented : '#' ∉ commandLine
  single : '\n' ∉ commandLine

section Modules

theorem clean_of_logical {text line : Text} (member : line ∈ logicalLines text) :
    '#' ∉ line ∧ '\n' ∉ line := by
  obtain ⟨part, split, rfl⟩ := List.mem_map.mp member
  constructor
  · intro comment
    have kept := List.mem_takeWhile_imp (Blank.mem_of_mem_trim comment)
    simp at kept
  · intro lineEnd
    have inside := (List.takeWhile_prefix _).subset (Blank.mem_of_mem_trim lineEnd)
    exact Path.not_mem_of_mem_splitAt split inside

/-- A module line names the first word of its command line, which is part of the line. -/
theorem module_of_text {line : Text} {name : Path} {commandLine : Text}
    (asked : Line.ofText line = .module name commandLine) :
    name = ⟨Blank.firstWord commandLine⟩ ∧ Blank.firstWord commandLine ≠ [] ∧
      ∃ rest, commandLine = Blank.trim rest ∧ ∀ character ∈ rest, character ∈ line := by
  unfold Line.ofText at asked
  split at asked
  · cases asked
  · change Line.ofWord line (Blank.cut line).1 (Blank.trim (Blank.cut line).2) = _ at asked
    unfold Line.ofWord at asked
    repeat' split at asked
    all_goals cases asked
    next named =>
      refine ⟨rfl, named, (Blank.cut line).2, rfl, ?_⟩
      intro character member
      exact (List.dropWhile_suffix _).subset (List.mem_of_mem_drop member)

theorem command_line_of_module {text commandLine : Text} {name : Path}
    (member : .module name commandLine ∈ lines text) :
    name = ⟨Blank.firstWord commandLine⟩ ∧ IsCommandLine commandLine := by
  obtain ⟨line, logical, asked⟩ := List.mem_map.mp member
  obtain ⟨same, named, rest, rfl, inside⟩ := module_of_text asked
  obtain ⟨uncommented, single⟩ := clean_of_logical logical
  refine ⟨same, ?_, Blank.trim_trim rest, ?_, ?_⟩
  · intro empty
    rw [empty] at named
    exact named rfl
  · exact fun comment => uncommented (inside _ (Blank.mem_of_mem_trim comment))
  · exact fun lineEnd => single (inside _ (Blank.mem_of_mem_trim lineEnd))

end Modules

/-- The root that a file inside these is opened under. -/
def rootWithin (top : Path) : List Frame → Path
  | [] => top
  | frame :: _ => frame.root

/-- The root of every open file is the one that it was opened under, or the last one that it set
since. -/
inductive Rooted (source : FileSource) (top : Path) : List Frame → Prop where
  | none : Rooted source top []
  | opened {file root : Path} {text : Text} {passed rest : List Line} {outer : List Frame}
      (read : source.readText file = .ok text) (split : lines text = passed ++ rest)
      (rooted : root = rootAfter (rootWithin top outer) passed) (around : Rooted source top outer) :
      Rooted source top (⟨file, root, rest⟩ :: outer)

section Roots

open Traversal

variable {source : FileSource} {top : Path}

theorem rooted_enter {traversal next : Traversal} {reference : Reference}
    (rooted : Rooted source top traversal.frames)
    (under : reference.root = rootWithin top traversal.frames)
    (opened : enter source traversal reference = .on next) : Rooted source top next.frames := by
  cases entered : reference.enter source traversal.active with
  | error fault =>
      rw [enter_of_error entered] at opened
      cases opened
  | ok text =>
      rw [enter_of_ok entered] at opened
      cases opened
      exact .opened (enter_ok.mp entered).2 (List.nil_append (lines text)).symm under rooted

theorem rooted_passed {file root : Path} {line : Line} {rest : List Line} {outer : List Frame}
    (rooted : Rooted source top (⟨file, root, line :: rest⟩ :: outer)) :
    Rooted source top (⟨file, line.rebase root, rest⟩ :: outer) := by
  cases rooted with
  | @opened _ _ text passed _ _ read split root around =>
      have longer : lines text = (passed ++ [line]) ++ rest := by
        rw [split, List.append_assoc, List.singleton_append]
      refine .opened read longer ?_ around
      rw [root, rootAfter, rootAfter, List.foldl_append, List.foldl_cons, List.foldl_nil]

theorem rooted_advance {traversal next : Traversal} (rooted : Rooted source top traversal.frames)
    (advanced : advance source traversal = .on next) : Rooted source top next.frames := by
  cases advances_of_advance advanced with
  | closed =>
      cases rooted with
      | opened read split root around => exact around
  | included opened => exact rooted_enter (rooted_passed rooted) rfl opened
  | _ => exact rooted_passed rooted

theorem rooted_of_reached {name : Path} {state : Traversal}
    (reached : Reached source ⟨name, top⟩ state) : Rooted source top state.frames := by
  obtain ⟨first, begun, steps⟩ := reached
  induction steps with
  | refl => exact rooted_enter .none rfl begun
  | tail _ advanced ih => exact rooted_advance ih advanced

end Roots

section Modules

open Traversal

variable {source : FileSource}

/-- The next line gives this module. -/
def Yields (state : Traversal) (file : Path) (commandLine : Text) : Prop :=
  ∃ current root name rest outer,
    state.frames = ⟨current, root, .module name commandLine :: rest⟩ :: outer ∧ file = root.join name

theorem found_of_enter {traversal next : Traversal} {reference : Reference}
    (opened : enter source traversal reference = .on next) : next.found = traversal.found := by
  cases entered : reference.enter source traversal.active with
  | error fault =>
      rw [enter_of_error entered] at opened
      cases opened
  | ok text =>
      rw [enter_of_ok entered] at opened
      cases opened
      rfl

theorem found_of_advance {state next : Traversal} (advanced : advance source state = .on next) :
    next.found = state.found ∨ ∃ entry, next.found = state.found ++ [entry] ∧
      ∀ file commandLine, entry = .load file commandLine → Yields state file commandLine := by
  cases advances_of_advance advanced with
  | closed => exact Or.inl rfl
  | passed nothing => exact Or.inl rfl
  | included opened =>
      have kept := found_of_enter opened
      exact Or.inl kept
  | moved spelled => exact Or.inr ⟨_, rfl, fun file commandLine same => by cases same⟩
  | @loaded current root name parameter rest outer found =>
      refine Or.inr ⟨_, rfl, ?_⟩
      intro file commandLine same
      cases same
      exact ⟨current, root, name, rest, outer, rfl, rfl⟩

/-- An entry of a longer list is one of the list, or the last. -/
theorem listed_append_last {found : List Entry} {entry other : Entry} {position : Nat}
    (listed : (found ++ [entry])[position]? = some other) :
    (position < found.length ∧ found[position]? = some other) ∨
      (position = found.length ∧ entry = other) := by
  rcases Nat.lt_or_ge position found.length with inside | behind
  · rw [List.getElem?_append_left inside] at listed
    exact Or.inl ⟨inside, listed⟩
  · rw [List.getElem?_append_right behind, List.getElem?_singleton] at listed
    split at listed
    · next here => exact Or.inr ⟨by omega, Option.some.inj listed⟩
    · cases listed

/-- Every module that was found was given by a line, when the entries in front of it had been found. -/
theorem given_of_reached {top : Reference} {state : Traversal} (reached : Reached source top state)
    {position : Nat} {file : Path} {commandLine : Text}
    (listed : state.found[position]? = some (.load file commandLine)) :
    ∃ earlier, Reached source top earlier ∧ earlier.found = state.found.take position ∧
      Yields earlier file commandLine := by
  obtain ⟨first, begun, steps⟩ := reached
  -- The list only grows at its end: what is not the last entry was listed a step before.
  induction steps with
  | refl =>
      rw [found_of_enter begun] at listed
      cases listed
  | @tail last next before advanced ih =>
      rcases found_of_advance advanced with same | ⟨entry, longer, yields⟩
      · rw [same] at listed ⊢
        exact ih listed
      · rw [longer] at listed ⊢
        rcases listed_append_last listed with ⟨inside, earlier⟩ | ⟨rfl, rfl⟩
        · rw [List.take_append_of_le_length (Nat.le_of_lt inside)]
          exact ih earlier
        · exact ⟨last, ⟨first, begun, before⟩, List.take_left.symm, yields file commandLine rfl⟩

theorem found_of_finished {state : Traversal} {entries : List Entry}
    (last : (advance source state).outcome? = some (.ok entries)) : state.found = entries := by
  cases ended : advance source state with
  | on next =>
      rw [ended] at last
      cases last
  | failed fault =>
      rw [ended] at last
      cases last
  | finished others =>
      rw [ended] at last
      cases last
      unfold advance at ended
      split at ended
      · cases ended
        rfl
      · cases ended
      · split at ended
        · cases ended
        · cases ended
        · simp only [enter] at ended
          split at ended <;> cases ended
        · cases ended

/-- A module of a parsed manifest comes from a line that the traversal arrives at when it has found
the entries in front of it; its file is the first word of the command line below the root in effect
there. -/
theorem module_of_parsed {name root : Path} {entries : List Entry}
    (parsed : (parse source name root).result = .ok entries) {position : Nat} {file : Path}
    {commandLine : Text} (listed : entries[position]? = some (.load file commandLine)) :
    IsCommandLine commandLine ∧
      ∃ current within rest outer,
        let frames := ⟨current, within, .module ⟨Blank.firstWord commandLine⟩ commandLine :: rest⟩ :: outer
        Reached source ⟨name, root⟩ ⟨frames, entries.take position⟩ ∧ Rooted source root frames ∧
          file = within.join ⟨Blank.firstWord commandLine⟩ := by
  obtain ⟨outcome, ends, returned⟩ := ends_of_parse source ⟨name, root⟩
  rw [parsed] at returned
  obtain rfl : outcome = .ok entries := by
    cases outcome with
    | error fault => cases returned
    | ok others => exact congrArg Except.ok (Except.ok.inj returned).symm
  cases ends with
  | unopened refused =>
      simp only [enter] at refused
      split at refused <;> cases refused
  | @stopped state reached last =>
      obtain rfl := found_of_finished last
      obtain ⟨⟨frames, found⟩, arrived, taken, current, within, given, rest, outer, rfl, rfl⟩ :=
        given_of_reached reached listed
      cases taken
      have rooted := rooted_of_reached arrived
      cases rooted with
      | opened read split root around =>
          have member : .module given commandLine ∈ lines _ :=
            split ▸ List.mem_append_right _ List.mem_cons_self
          obtain ⟨rfl, shape⟩ := command_line_of_module member
          exact ⟨shape, current, within, rest, outer, arrived, .opened read split root around, rfl⟩

end Modules
end Manifest
end RemoteBoot
