import Mathlib.Data.List.Dedup
import Mathlib.Data.List.Perm.Subperm
import RemoteBoot.Proofs.Manifest.Nesting
import RemoteBoot.Proofs.Remote.Actions

/-!
# Expansion step by step

A traversal reads one line after another.  It keeps a frame for every file that it is inside of,
with the root in effect and the lines that are left; an include opens a frame, and at the last line
of a file its frame is closed.  Every traversal comes to an end, and parsing a manifest gives what
its traversal ends with.  A file is never open twice, and a cycle is reported exactly when the
traversal comes to the include of a file that is open at that moment.
-/

set_option autoImplicit false

namespace RemoteBoot.Manifest

structure Frame where
  file : Path
  root : Path
  rest : List Line

/-- The open files, innermost first, and the steps found so far. -/
structure Traversal where
  frames : List Frame
  found : List Entry

inductive Progress where
  | on (traversal : Traversal)
  | finished (entries : List Entry)
  | failed (fault : Fault)

namespace Traversal

def active (traversal : Traversal) : List Path :=
  traversal.frames.map Frame.file

def upcoming : Traversal → Option Reference
  | ⟨⟨_, root, .splice name :: _⟩ :: _, _⟩ => some ⟨name, root⟩
  | _ => none

/-- Opens a manifest unless its file is open already. -/
def enter (source : FileSource) (traversal : Traversal) (reference : Reference) : Progress :=
  match reference.enter source traversal.active with
  | .error fault => .failed fault
  | .ok text =>
    .on ⟨⟨reference.file, reference.root, lines text⟩ :: traversal.frames, traversal.found⟩

/-- One line, or the end of a file. -/
def advance (source : FileSource) : Traversal → Progress
  | ⟨[], found⟩ => .finished found
  | ⟨⟨_, _, []⟩ :: outer, found⟩ => .on ⟨outer, found⟩
  | ⟨⟨file, root, line :: rest⟩ :: outer, found⟩ =>
    let frames := ⟨file, line.rebase root, rest⟩ :: outer
    match line.contribution file root with
    | .nothing => .on ⟨frames, found⟩
    | .step entry => .on ⟨frames, found ++ [entry]⟩
    | .splice reference => enter source ⟨frames, found⟩ reference
    | .refusal fault => .failed fault

end Traversal

open Traversal

/-- The later of two states of one traversal. -/
def Steps (source : FileSource) : Traversal → Traversal → Prop :=
  Relation.ReflTransGen fun state next => advance source state = .on next

def Reached (source : FileSource) (top : Reference) (state : Traversal) : Prop :=
  ∃ first, enter source ⟨[], []⟩ top = .on first ∧ Steps source first state

def Progress.outcome? : Progress → Option (Except Fault (List Entry))
  | .on _ => none
  | .finished entries => some (.ok entries)
  | .failed fault => some (.error fault)

/-- What the traversal of a manifest ends with. -/
inductive Ends (source : FileSource) (top : Reference) (outcome : Except Fault (List Entry)) :
    Prop where
  | unopened (refused : (enter source ⟨[], []⟩ top).outcome? = some outcome)
  | stopped {state : Traversal} (reached : Reached source top state)
      (last : (advance source state).outcome? = some outcome)

section Ending

variable {source : FileSource}

/-- From a state the traversal comes back to the outer frames with these entries found, or it stops
on the way. -/
def ComesTo (source : FileSource) (state : Traversal) (outer : List Frame) (found : List Entry) :
    Except Stop (List Entry) → Prop
  | .ok entries => Steps source state ⟨outer, found ++ entries⟩
  | .error stop => ∃ fault last, stop = .fault fault ∧ Steps source state last ∧
      advance source last = .failed fault

theorem ComesTo.of_steps {state next : Traversal} {outer : List Frame} {found : List Entry}
    {result : Except Stop (List Entry)} (steps : Steps source state next)
    (comes : ComesTo source next outer found result) : ComesTo source state outer found result := by
  cases result with
  | ok entries => exact Relation.ReflTransGen.trans steps comes
  | error stop =>
      obtain ⟨fault, last, same, further, failed⟩ := comes
      exact ⟨fault, last, same, steps.trans further, failed⟩

/-- What comes first stands in front of what the rest gives. -/
theorem ComesTo.bind {state : Traversal} {within outer : List Frame} {found : List Entry}
    {first rest : Except Stop (List Entry)} (begun : ComesTo source state within found first)
    (continued : ∀ own, ComesTo source ⟨within, found ++ own⟩ outer (found ++ own) rest) :
    ComesTo source state outer found
      (first.bind fun own => rest.map fun others => own ++ others) := by
  cases first with
  | error stop => exact begun
  | ok own =>
      have further := continued own
      apply ComesTo.of_steps begun
      cases rest with
      | error stop => exact further
      | ok others =>
          rw [ComesTo, List.append_assoc] at further
          exact further

theorem enter_of_ok {traversal : Traversal} {reference : Reference} {text : Text}
    (entered : reference.enter source traversal.active = .ok text) :
    enter source traversal reference =
      .on ⟨⟨reference.file, reference.root, lines text⟩ :: traversal.frames, traversal.found⟩ := by
  rw [Traversal.enter, entered]

theorem enter_of_error {traversal : Traversal} {reference : Reference} {fault : Fault}
    (refused : reference.enter source traversal.active = .error fault) :
    enter source traversal reference = .failed fault := by
  rw [Traversal.enter, refused]

/-- Below some files, the traversal of every manifest that is opened comes to what the manifest
expands to. -/
def Follows (source : FileSource) (chain : List Path) : Prop :=
  ∀ (reference : Reference) (text : Text), reference.enter source chain = .ok text →
    ∀ (outer : List Frame) (found : List Entry), outer.map Frame.file = chain →
      ComesTo source ⟨⟨reference.file, reference.root, lines text⟩ :: outer, found⟩ outer found
        (reference.expand source chain)

theorem comes_to_spliced {chain : List Path} (follows : Follows source chain)
    {within : List Frame} (same : within.map Frame.file = chain) {state : Traversal}
    {found : List Entry} {reference : Reference}
    (arrives : advance source state = enter source ⟨within, found⟩ reference) :
    ComesTo source state within found (reference.expand source chain) := by
  have active : (⟨within, found⟩ : Traversal).active = chain := same
  cases entered : reference.enter source chain with
  | error fault =>
      rw [expand_eq, entered]
      rw [enter_of_error (by rw [active, entered])] at arrives
      exact ⟨fault, state, rfl, .refl, arrives⟩
  | ok text =>
      rw [enter_of_ok (by rw [active, entered])] at arrives
      exact .of_steps (.single arrives) (follows reference text entered within found same)

/-- One line comes to its contribution, and its file is still open. -/
theorem comes_to_contributed {chain : List Path} {file : Path}
    (follows : Follows source (file :: chain)) {outer : List Frame}
    (same : outer.map Frame.file = chain) (line : Line) (rest : List Line) (root : Path)
    (found : List Entry) :
    ComesTo source ⟨⟨file, root, line :: rest⟩ :: outer, found⟩
      (⟨file, line.rebase root, rest⟩ :: outer) found
      ((line.contribution file root).steps (Reference.expand source (file :: chain))) := by
  cases contributed : line.contribution file root with
  | nothing =>
      have passes : advance source ⟨⟨file, root, line :: rest⟩ :: outer, found⟩ =
          .on ⟨⟨file, line.rebase root, rest⟩ :: outer, found⟩ := by
        simp only [advance, contributed]
      rw [Contribution.steps, ComesTo, List.append_nil]
      exact .single passes
  | step entry =>
      have finds : advance source ⟨⟨file, root, line :: rest⟩ :: outer, found⟩ =
          .on ⟨⟨file, line.rebase root, rest⟩ :: outer, found ++ [entry]⟩ := by
        simp only [advance, contributed]
      exact .single finds
  | refusal fault =>
      refine ⟨fault, _, rfl, .refl, ?_⟩
      simp only [advance, contributed]
  | splice reference =>
      have arrives : advance source ⟨⟨file, root, line :: rest⟩ :: outer, found⟩ =
          enter source ⟨⟨file, line.rebase root, rest⟩ :: outer, found⟩ reference := by
        simp only [advance, contributed]
      exact comes_to_spliced follows (by rw [List.map_cons, same]) arrives

theorem comes_to_gathered {chain : List Path} {file : Path}
    (follows : Follows source (file :: chain)) {outer : List Frame}
    (same : outer.map Frame.file = chain) (rest : List Line) (root : Path) (found : List Entry) :
    ComesTo source ⟨⟨file, root, rest⟩ :: outer, found⟩ outer found
      (gather (Reference.expand source (file :: chain)) (contributions file root rest)) := by
  induction rest generalizing root found with
  | nil =>
      have closed : advance source ⟨⟨file, root, []⟩ :: outer, found⟩ = .on ⟨outer, found⟩ := rfl
      rw [contributions, gather, ComesTo, List.append_nil]
      exact .single closed
  | cons line rest ih =>
      have begun := comes_to_contributed follows same line rest root found
      rw [contributions, gather]
      exact begun.bind fun own => ih (line.rebase root) (found ++ own)

theorem follows (source : FileSource) (chain : List Path) : Follows source chain := by
  induction chain using chain_induction source with
  | down chain ih =>
      intro reference text entered outer found same
      rw [expand_eq, entered]
      exact comes_to_gathered (ih reference text entered) same _ _ _

/-- Every traversal ends, and with what parsing gives. -/
theorem ends_of_parse (source : FileSource) (top : Reference) :
    ∃ outcome, Ends source top outcome ∧
      (parse source top.name top.root).result = outcome.mapError Stop.fault := by
  change ∃ outcome, _ ∧ top.expand source [] = _
  cases entered : top.enter source [] with
  | error fault =>
      refine ⟨.error fault, .unopened ?_, ?_⟩
      · rw [enter_of_error entered]
        rfl
      · rw [expand_eq, entered]
        rfl
  | ok text =>
      have comes := follows source [] top text entered [] [] rfl
      have begun : enter source ⟨[], []⟩ top = .on _ := enter_of_ok entered
      cases expanded : top.expand source [] with
      | ok entries =>
          rw [expanded] at comes
          exact ⟨.ok entries, .stopped ⟨_, begun, comes⟩ rfl, rfl⟩
      | error stop =>
          rw [expanded] at comes
          obtain ⟨fault, last, rfl, steps, failed⟩ := comes
          refine ⟨.error fault, .stopped ⟨_, begun, steps⟩ ?_, rfl⟩
          rw [failed]
          rfl

theorem last_of_steps {first last other : Traversal} {outcome otherOutcome}
    (steps : Steps source first last) (otherSteps : Steps source first other)
    (stopped : (advance source last).outcome? = some outcome)
    (otherStopped : (advance source other).outcome? = some otherOutcome) : last = other := by
  have unique : Relator.RightUnique fun state next => advance source state = .on next := by
    intro state next another here there
    rw [here] at there
    exact Progress.on.inj there
  -- One of the two comes later, and the other one stops without a next state.
  rcases Relation.ReflTransGen.total_of_right_unique unique steps otherSteps with further | further
  · rcases further.cases_head with same | ⟨next, on, _⟩
    · exact same
    · rw [on] at stopped
      cases stopped
  · rcases further.cases_head with same | ⟨next, on, _⟩
    · exact same.symm
    · rw [on] at otherStopped
      cases otherStopped

theorem ends_unique {top : Reference} {outcome other : Except Fault (List Entry)}
    (ends : Ends source top outcome) (otherEnds : Ends source top other) : outcome = other := by
  cases ends with
  | unopened refused =>
      cases otherEnds with
      | unopened otherRefused =>
          rw [refused] at otherRefused
          exact Option.some.inj otherRefused
      | stopped reached last =>
          obtain ⟨first, begun, _⟩ := reached
          rw [begun] at refused
          cases refused
  | stopped reached last =>
      obtain ⟨first, begun, steps⟩ := reached
      cases otherEnds with
      | unopened otherRefused =>
          rw [begun] at otherRefused
          cases otherRefused
      | stopped otherReached otherLast =>
          obtain ⟨_, begunAgain, otherSteps⟩ := otherReached
          rw [begun] at begunAgain
          cases begunAgain
          rw [last_of_steps steps otherSteps last otherLast, otherLast] at last
          exact (Option.some.inj last).symm

end Ending

section Active

variable {source : FileSource}

/-- The open files differ from one another, and the source holds all of them. -/
structure Sound (source : FileSource) (traversal : Traversal) : Prop where
  distinct : traversal.active.Nodup
  held : ∀ file ∈ traversal.active, file ∈ source.names

/-- What one step does. -/
inductive Advances (source : FileSource) : Traversal → Traversal → Prop where
  | closed {file root : Path} {outer : List Frame} {found : List Entry} :
      Advances source ⟨⟨file, root, []⟩ :: outer, found⟩ ⟨outer, found⟩
  | passed {file root : Path} {line : Line} {rest : List Line} {outer : List Frame}
      {found : List Entry} (nothing : line.contribution file root = .nothing) :
      Advances source ⟨⟨file, root, line :: rest⟩ :: outer, found⟩
        ⟨⟨file, line.rebase root, rest⟩ :: outer, found⟩
  | loaded {file root name : Path} {commandLine : Text} {rest : List Line} {outer : List Frame}
      {found : List Entry} :
      Advances source ⟨⟨file, root, .module name commandLine :: rest⟩ :: outer, found⟩
        ⟨⟨file, root, rest⟩ :: outer, found ++ [.load (root.join name) commandLine]⟩
  | moved {file root : Path} {text : Text} {start : Nat} {rest : List Line} {outer : List Frame}
      {found : List Entry} (spelled : Numeral.address? text = some start) :
      Advances source ⟨⟨file, root, .address text :: rest⟩ :: outer, found⟩
        ⟨⟨file, root, rest⟩ :: outer, found ++ [.address start]⟩
  | included {file root name : Path} {rest : List Line} {outer : List Frame} {found : List Entry}
      {next : Traversal}
      (opened : enter source ⟨⟨file, root, rest⟩ :: outer, found⟩ ⟨name, root⟩ = .on next) :
      Advances source ⟨⟨file, root, .splice name :: rest⟩ :: outer, found⟩ next

theorem advances_of_advance {traversal next : Traversal}
    (advanced : advance source traversal = .on next) : Advances source traversal next := by
  obtain ⟨frames, found⟩ := traversal
  cases frames with
  | nil => cases advanced
  | cons frame outer =>
      obtain ⟨file, root, rest⟩ := frame
      cases rest with
      | nil =>
          cases advanced
          exact .closed
      | cons line rest =>
          simp only [advance] at advanced
          cases line with
          | module name commandLine =>
              cases advanced
              exact .loaded
          | splice name => exact .included advanced
          | address text =>
              cases spelled : Numeral.address? text with
              | none =>
                  simp only [Line.contribution, spelled] at advanced
                  cases advanced
              | some start =>
                  simp only [Line.contribution, spelled] at advanced
                  cases advanced
                  exact .moved spelled
          | _ =>
              cases advanced
              exact .passed rfl

theorem sound_enter {traversal next : Traversal} {reference : Reference}
    (sound : Sound source traversal) (opened : enter source traversal reference = .on next) :
    Sound source next := by
  cases entered : reference.enter source traversal.active with
  | error fault =>
      rw [enter_of_error entered] at opened
      cases opened
  | ok text =>
      rw [enter_of_ok entered] at opened
      cases opened
      obtain ⟨fresh, read⟩ := enter_ok.mp entered
      exact ⟨List.nodup_cons.mpr ⟨fresh, sound.distinct⟩,
        List.forall_mem_cons.mpr ⟨FileSource.listed_of_readText read, sound.held⟩⟩

theorem sound_advance {traversal next : Traversal} (sound : Sound source traversal)
    (advanced : advance source traversal = .on next) : Sound source next := by
  cases advances_of_advance advanced with
  | closed => exact ⟨(List.nodup_cons.mp sound.distinct).2, (List.forall_mem_cons.mp sound.held).2⟩
  | included opened =>
      refine sound_enter ?_ opened
      exact ⟨sound.distinct, sound.held⟩
  | _ => exact ⟨sound.distinct, sound.held⟩

theorem sound_of_reached {top : Reference} {state : Traversal}
    (reached : Reached source top state) : Sound source state := by
  obtain ⟨first, begun, steps⟩ := reached
  induction steps with
  | refl =>
      have empty : Sound source ⟨[], []⟩ := ⟨List.nodup_nil, fun file member => nomatch member⟩
      exact sound_enter empty begun
  | tail _ advanced ih => exact sound_advance ih advanced

theorem outcome_error_iff {progress : Progress} {fault : Fault} :
    progress.outcome? = some (.error fault) ↔ progress = .failed fault := by
  cases progress <;> simp [Progress.outcome?]

theorem enter_cycle_iff {traversal : Traversal} {reference : Reference} {file again : Path} :
    enter source traversal reference = .failed (.manifest file (.includeCycle again)) ↔
      file = again ∧ reference.file = again ∧ again ∈ traversal.active := by
  rw [Traversal.enter, Reference.enter]
  by_cases opened : reference.file ∈ traversal.active
  · rw [if_pos opened]
    constructor
    · intro failed
      cases failed
      exact ⟨rfl, rfl, opened⟩
    · rintro ⟨rfl, rfl, _⟩
      rfl
  · rw [if_neg opened]
    constructor
    · intro failed
      cases read : source.readText reference.file <;> simp [read] at failed
    · rintro ⟨_, rfl, member⟩
      exact absurd member opened

/-- A step fails for a cycle exactly at the include of an open file. -/
theorem advance_cycle_iff {traversal : Traversal} {file again : Path} :
    advance source traversal = .failed (.manifest file (.includeCycle again)) ↔
      file = again ∧ ∃ reference, traversal.upcoming = some reference ∧
        reference.file = again ∧ again ∈ traversal.active := by
  obtain ⟨frames, found⟩ := traversal
  cases frames with
  | nil => simp [advance, upcoming]
  | cons frame outer =>
      obtain ⟨current, root, rest⟩ := frame
      cases rest with
      | nil => simp [advance, upcoming]
      | cons line rest =>
          cases line with
          | splice name =>
              simp only [advance, Line.contribution, enter_cycle_iff, upcoming, Option.some.injEq,
                exists_eq_left']
              rfl
          | address text =>
              cases spelled : Numeral.address? text <;>
                simp [advance, Line.contribution, spelled, upcoming]
          | _ => simp [advance, Line.contribution, upcoming]

end Active

/-- Parsing returns what the traversal of the manifest ends with.  At no time are more files open
than the source holds.  A cycle is reported exactly when the traversal comes to the include of a
file that is open at that moment, and without a fault no chain of includes repeats a file. -/
theorem expansion_finds_cycles (source : FileSource) (name root : Path) :
    let top : Reference := ⟨name, root⟩
    let result := (parse source name root).result
    (∃ outcome, result = outcome.mapError Stop.fault ∧
        ∀ other, Ends source top other ↔ other = outcome) ∧
      (∀ state, Reached source top state →
        state.active.Nodup ∧ state.active.length ≤ source.names.dedup.length) ∧
      (∀ file again, result = .error (.fault (.manifest file (.includeCycle again))) ↔
        file = again ∧ ∃ state reference, Reached source top state ∧
          state.upcoming = some reference ∧ reference.file = again ∧ again ∈ state.active) ∧
      ∀ entries, result = .ok entries → ∀ rest, Nested source (top :: rest) →
        ((top :: rest).map Reference.file).Nodup := by
  intro top result
  obtain ⟨outcome, ends, returned⟩ := ends_of_parse source top
  have decided : ∀ other, Ends source top other ↔ other = outcome := fun other =>
    ⟨fun otherEnds => ends_unique otherEnds ends, fun same => same ▸ ends⟩
  refine ⟨⟨outcome, returned, decided⟩, ?_, ?_, ?_⟩
  · intro state reached
    have sound := sound_of_reached reached
    have within : state.active ⊆ source.names.dedup := fun file member =>
      List.mem_dedup.mpr (sound.held file member)
    exact ⟨sound.distinct, (List.subperm_of_subset sound.distinct within).length_le⟩
  · intro file again
    have failed : result = .error (.fault (.manifest file (.includeCycle again))) ↔
        Ends source top (.error (.manifest file (.includeCycle again))) := by
      rw [decided, show result = outcome.mapError Stop.fault from returned]
      cases outcome <;> simp [Except.mapError, eq_comm]
    rw [failed]
    constructor
    · intro ended
      cases ended with
      | unopened refused =>
          obtain ⟨_, _, member⟩ := enter_cycle_iff.mp (outcome_error_iff.mp refused)
          cases member
      | stopped reached last =>
          obtain ⟨same, reference, comes, repeated⟩ :=
            advance_cycle_iff.mp (outcome_error_iff.mp last)
          exact ⟨same, _, reference, reached, comes, repeated⟩
    · rintro ⟨same, state, reference, reached, comes, repeated⟩
      have last : advance source state = .failed _ :=
        advance_cycle_iff.mpr ⟨same, reference, comes, repeated⟩
      exact .stopped reached (outcome_error_iff.mpr last)
  · intro entries expanded rest nested
    have opened : top.expand source [] = .ok entries := expanded
    exact (nodup_of_nested opened nested).1

/-- A manifest that includes two others, which both include a fourth; and one that goes on from
there to include itself. -/
def diamond : FileSource :=
  (MemoryFiles.ofList [
    (.ofString "/boot/a.conf", Utf8.encode "conf b.conf\nconf c.conf\n".toList),
    (.ofString "/boot/b.conf", Utf8.encode "conf d.conf\n".toList),
    (.ofString "/boot/c.conf", Utf8.encode "conf ./d.conf\n".toList),
    (.ofString "/boot/d.conf", Utf8.encode "load k\n".toList),
    (.ofString "/boot/e.conf", Utf8.encode "conf a.conf\nconf ../boot/e.conf\n".toList)]).source

theorem diamond_is_no_cycle :
    (parse diamond (.ofString "a.conf") (.ofString "/boot")).result =
        .ok [.load (.ofString "/boot/k") ['k'], .load (.ofString "/boot/k") ['k']] ∧
      (∀ state, Reached diamond ⟨.ofString "a.conf", .ofString "/boot"⟩ state →
        state.active.length ≤ 5) ∧
      ∃ state reference, Reached diamond ⟨.ofString "e.conf", .ofString "/boot"⟩ state ∧
        state.upcoming = some reference ∧ reference.file = .ofString "/boot/e.conf" ∧
        .ofString "/boot/e.conf" ∈ state.active := by
  have repeats : (parse diamond (.ofString "e.conf") (.ofString "/boot")).result =
      .error (.fault (.manifest (.ofString "/boot/e.conf")
        (.includeCycle (.ofString "/boot/e.conf")))) := error_of_fault (by decide +kernel)
  obtain ⟨_, bounded, _, _⟩ :=
    expansion_finds_cycles diamond (.ofString "a.conf") (.ofString "/boot")
  obtain ⟨_, _, cycles, _⟩ :=
    expansion_finds_cycles diamond (.ofString "e.conf") (.ofString "/boot")
  have held : diamond.names.dedup.length = 5 := by decide +kernel
  rw [held] at bounded
  exact ⟨ok_of_to_option (by decide +kernel), fun state reached => (bounded state reached).2,
    ((cycles _ _).mp repeats).2⟩

end RemoteBoot.Manifest
