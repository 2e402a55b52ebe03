import RemoteBoot.Command.BootOptions

/-!
# The place of an option

What a command line of the boot program has to hold, said of its arguments as a collection: one
manifest, any number of known options and nothing else.  The parser accepts exactly these lines, so
their order counts for nothing, and neither does how often the option is given.  It can be seen as
one pass over the arguments that stops at the first unknown option.
-/

set_option autoImplicit false

namespace RemoteBoot.Command.BootOptions

/-- What has been read of a command line. -/
structure Progress where
  once : Bool
  manifests : List Text

namespace Progress

def start : Progress := ⟨false, []⟩

/-- Takes one more argument. -/
def take (progress : Progress) (argument : Text) : Except UsageError Progress :=
  if argument = onceOption then .ok { progress with once := true }
  else if isOption argument then .error (.unknownOption argument)
  else .ok { progress with manifests := progress.manifests ++ [argument] }

/-- The options once all arguments have been taken. -/
def finish (progress : Progress) : Except UsageError BootOptions :=
  match progress.manifests with
  | [manifest] => .ok ⟨⟨manifest⟩, progress.once⟩
  | [] => .error .missingManifest
  | _ => .error .extraManifest

/-- An argument that is taken adds to what was read before. -/
theorem take_known (progress : Progress) {argument : Text}
    (known : (isOption argument && argument ≠ onceOption) = false) :
    progress.take argument =
      .ok ⟨progress.once || onceOption == argument,
        progress.manifests ++ [argument].filter fun argument => argument ≠ onceOption⟩ := by
  by_cases option : argument = onceOption
  · subst option
    simp [take]
  · have plain : isOption argument = false := by simpa [option] using known
    have other : (onceOption == argument) = false := by
      rw [beq_eq_false_iff_ne]
      exact Ne.symm option
    simp [take, option, plain, other]

theorem take_unknown (progress : Progress) {argument : Text}
    (unknown : (isOption argument && argument ≠ onceOption) = true) :
    progress.take argument = .error (.unknownOption argument) := by
  simp only [Bool.and_eq_true, decide_eq_true_eq] at unknown
  rw [take, if_neg unknown.2, if_pos unknown.1]

theorem take_all (progress : Progress) (arguments : List Text) :
    arguments.foldlM take progress =
      match unknown? arguments with
      | some option => .error (.unknownOption option)
      | none =>
        .ok ⟨progress.once || arguments.contains onceOption,
          progress.manifests ++ arguments.filter fun argument => argument ≠ onceOption⟩ := by
  induction arguments generalizing progress with
  | nil => simp [unknown?]; rfl
  | cons argument arguments ih =>
      rw [List.foldlM_cons, unknown?, List.find?_cons]
      cases judged : isOption argument && argument ≠ onceOption with
      | true =>
          rw [take_unknown progress judged]
          rfl
      | false =>
          rw [take_known progress judged]
          change arguments.foldlM take _ = _
          rw [ih, unknown?, List.contains_cons, Bool.or_assoc, List.append_assoc,
            ← List.filter_append, List.singleton_append]

end Progress

/-- The parser is one pass over the arguments. -/
theorem parse_eq_one_pass (arguments : List Text) :
    parse arguments = arguments.foldlM Progress.take Progress.start >>= Progress.finish := by
  rw [Progress.take_all, parse]
  cases unknown? arguments with
  | some option => rfl
  | none => rfl

/-- What a command line asks for: nothing but the known option looks like an option, and one
argument beside it names the manifest. -/
structure Asks (arguments : List Text) (options : BootOptions) : Prop where
  known : ∀ argument ∈ arguments, argument ≠ onceOption → argument.head? = some '-' →
    argument = ['-']
  one : arguments.countP (fun argument => argument ≠ onceOption) = 1
  named : options.manifest.spelling ∈ arguments
  manifest : options.manifest.spelling ≠ onceOption
  once : options.once = true ↔ onceOption ∈ arguments

theorem unknown_eq_none_iff (arguments : List Text) :
    unknown? arguments = none ↔ ∀ argument ∈ arguments, argument ≠ onceOption →
      argument.head? = some '-' → argument = ['-'] := by
  rw [unknown?, List.find?_eq_none]
  refine forall₂_congr fun argument _ => ?_
  simp only [isOption, Bool.and_eq_true, decide_eq_true_eq]
  constructor
  · intro plain other option
    refine Decidable.byContradiction fun long => ?_
    exact plain ⟨⟨option, long⟩, other⟩
  · rintro plain ⟨⟨option, long⟩, other⟩
    exact long (plain other option)

theorem asks_of_parsed {arguments : List Text} {options : BootOptions}
    (parsed : parse arguments = .ok options) : Asks arguments options := by
  rw [parse] at parsed
  split at parsed
  · cases parsed
  next known =>
    split at parsed
    · next manifest others =>
        cases parsed
        have listed : manifest ∈ arguments.filter fun argument => argument ≠ onceOption := by
          rw [others]
          exact List.mem_singleton_self manifest
        obtain ⟨named, other⟩ := List.mem_filter.mp listed
        refine ⟨(unknown_eq_none_iff arguments).mp known, ?_, named, of_decide_eq_true other,
          List.contains_iff_mem⟩
        rw [List.countP_eq_length_filter, others]
        rfl
    · cases parsed
    · cases parsed

theorem parsed_of_asks {arguments : List Text} {options : BootOptions}
    (asks : Asks arguments options) : parse arguments = .ok options := by
  have single := asks.one
  rw [List.countP_eq_length_filter] at single
  obtain ⟨manifest, others⟩ := List.length_eq_one_iff.mp single
  have listed : options.manifest.spelling ∈
      arguments.filter fun argument => argument ≠ onceOption :=
    List.mem_filter.mpr ⟨asks.named, decide_eq_true asks.manifest⟩
  rw [others, List.mem_singleton] at listed
  have once : arguments.contains onceOption = options.once := by
    rw [Bool.eq_iff_iff, asks.once, List.contains_iff_mem]
  rw [parse, (unknown_eq_none_iff arguments).mpr asks.known]
  simp only [others, once, ← listed]

theorem parse_iff (arguments : List Text) (options : BootOptions) :
    parse arguments = .ok options ↔ Asks arguments options :=
  ⟨asks_of_parsed, parsed_of_asks⟩

theorem Asks.permute {first second : List Text} {options : BootOptions}
    (asks : Asks first options) (permutation : first.Perm second) : Asks second options where
  known := fun argument member => asks.known argument (permutation.mem_iff.mpr member)
  one := (permutation.countP_eq _).symm.trans asks.one
  named := permutation.mem_iff.mp asks.named
  manifest := asks.manifest
  once := asks.once.trans permutation.mem_iff

/-- The parser sees of the known option only whether it was given. -/
theorem parse_of_same_others {first second : List Text}
    (others : first.filter (fun argument => argument ≠ onceOption) =
      second.filter fun argument => argument ≠ onceOption)
    (given : onceOption ∈ first ↔ onceOption ∈ second) : parse first = parse second := by
  have unknown (arguments : List Text) : unknown? arguments =
      (arguments.filter fun argument => argument ≠ onceOption).find? isOption := by
    rw [unknown?, List.find?_filter]
    refine congrArg (List.find? · arguments) (funext fun argument => ?_)
    rw [Bool.decide_and, Bool.decide_eq_true, Bool.decide_eq_true, Bool.and_comm]
  have contained : first.contains onceOption = second.contains onceOption := by
    rw [Bool.eq_iff_iff, List.contains_iff_mem, List.contains_iff_mem, given]
  rw [parse, parse, unknown, unknown, others, contained]

/-- The options are read off the arguments in one pass, and are the same in whatever order and
however often the option is given: a command line is accepted exactly if it asks for something. -/
theorem options_are_free_of_place :
    (∀ arguments, parse arguments =
        arguments.foldlM Progress.take Progress.start >>= Progress.finish) ∧
      (∀ arguments options, parse arguments = .ok options ↔ Asks arguments options) ∧
      (∀ first second options, first.Perm second → parse first = .ok options →
        parse second = .ok options) ∧
      ∀ first second : List Text,
        first.filter (fun argument => argument ≠ onceOption) =
            second.filter (fun argument => argument ≠ onceOption) →
          (onceOption ∈ first ↔ onceOption ∈ second) → parse first = parse second := by
  refine ⟨parse_eq_one_pass, parse_iff, ?_, fun _ _ => parse_of_same_others⟩
  intro first second options permutation accepted
  exact parsed_of_asks ((asks_of_parsed accepted).permute permutation)

/-- The option behind the manifest, and twice. -/
theorem option_behind_manifest :
    parse ["nova.conf".toList, onceOption] = .ok ⟨⟨"nova.conf".toList⟩, true⟩ ∧
      parse [onceOption, "nova.conf".toList] = .ok ⟨⟨"nova.conf".toList⟩, true⟩ ∧
      parse [onceOption, onceOption, "nova.conf".toList] = .ok ⟨⟨"nova.conf".toList⟩, true⟩ := by
  obtain ⟨_, accepts, permutes, repeats⟩ := options_are_free_of_place
  have asked : Asks ["nova.conf".toList, onceOption] ⟨⟨"nova.conf".toList⟩, true⟩ :=
    ⟨by decide, by decide, by decide, by decide, by decide⟩
  have behind := (accepts _ _).mpr asked
  have front := permutes _ [onceOption, "nova.conf".toList] _ (List.Perm.swap _ _ []) behind
  refine ⟨behind, front, ?_⟩
  rw [← front]
  exact repeats _ _ (by decide) (by decide)

end RemoteBoot.Command.BootOptions
