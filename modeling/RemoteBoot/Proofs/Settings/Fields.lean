import RemoteBoot.Proofs.Json.Records
import RemoteBoot.Settings

/-!
# Members that override settings

Which member of an object gives which field, for the settings of the bus and for all settings, and
in which fields settings differ.  The settings of the bus are overridden by themselves: what is not
given inside keeps its default, whatever else is given outside.
-/

set_option autoImplicit false

namespace RemoteBoot

theorem Json.below_of_lt {bound number : Nat} (below : number < bound) :
    Json.below? bound (.number (some number)) = some number :=
  if_pos below

namespace BusSettings

/-- A member that gives a field of the settings. -/
inductive Gives (settings : BusSettings) (name : Text) (value : Json) : Prop
  | program (named : name = "program".toList) (given : value = .string (some settings.program))
  | node (named : name = "node".toList) (given : value = .number (some settings.node.toNat))
  | blockSize (named : name = "block_size".toList)
      (given : value = .number (some settings.blockSize.toNat))

/-- The name of a field in which settings differ from others. -/
inductive Differs (settings others : BusSettings) (name : Text) : Prop
  | program (named : name = "program".toList) (differs : settings.program ≠ others.program)
  | node (named : name = "node".toList) (differs : settings.node ≠ others.node)
  | blockSize (named : name = "block_size".toList)
      (differs : settings.blockSize ≠ others.blockSize)

def names : List Text :=
  ["program", "node", "block_size"].map String.toList

/-- The settings when the names in `given` were taken over from a target. -/
def merged (target start : BusSettings) (given : List Text) : BusSettings where
  program := Json.pick given "program".toList target.program start.program
  node := Json.pick given "node".toList target.node start.node
  blockSize := Json.pick given "block_size".toList target.blockSize start.blockSize

theorem merges (target start : BusSettings) :
    Json.Merges fields target.Gives (target.Differs start) start target (target.merged start) where
  start := rfl
  step := by
    intro name value given gives
    cases gives with
    | program named same =>
        subst named same
        refine ⟨_, rfl, Json.set_of_read rfl ?_⟩
        simp (disch := decide) only [merged, Json.pick_self, Json.pick_apart]
    | node named same =>
        subst named same
        refine ⟨_, rfl, Json.set_of_read (Json.below_of_lt target.node.toNat_lt) ?_⟩
        simp (disch := decide) only [merged, Json.pick_self, Json.pick_apart, UInt32.ofNat_toNat]
    | blockSize named same =>
        subst named same
        refine ⟨_, rfl, Json.set_of_read (Json.below_of_lt target.blockSize.toNat_lt) ?_⟩
        simp (disch := decide) only [merged, Json.pick_self, Json.pick_apart, UInt32.ofNat_toNat]
  target := by
    intro given all
    rw [merged, Json.pick_told fun other => all _ (.program rfl other),
      Json.pick_told fun other => all _ (.node rfl other),
      Json.pick_told fun other => all _ (.blockSize rfl other)]
  known := by
    intro name differs
    have listed : fields.map Json.Field.name = names := rfl
    rw [listed]
    cases differs <;> (rename_i named _; rw [named]; decide)

/-- Members that override the defaults to these settings. -/
def Overrides (settings : BusSettings) (members : List (Option Text × Json)) : Prop :=
  Json.Overrides names settings.Gives (settings.Differs {}) members

theorem record_of_overrides {settings : BusSettings} {members : List (Option Text × Json)}
    (overrides : settings.Overrides members) (named : Json.Named members) :
    Json.record? fields {} (.object members) = some settings :=
  Json.set_members_of_overrides (settings.merges {}) overrides named

end BusSettings

namespace Settings

/-- A member that gives a field of the settings; those of the bus are overridden by themselves. -/
inductive Gives (settings : Settings) (name : Text) (value : Json) : Prop
  | bootDirectory (named : name = "boot_dir".toList)
      (given : value = .string (some settings.bootDirectory.spelling))
  | hypervisor (named : name = "hypervisor".toList)
      (given : value = .string (some settings.hypervisor.spelling))
  | bus (named : name = "transport".toList) (members : List (Option Text × Json))
      (given : value = .object members) (overrides : settings.bus.Overrides members)
  | loadAddress (named : name = "initial_load_address".toList)
      (given : value = .number (some settings.loadAddress))
  | pollMilliseconds (named : name = "poll_interval_ms".toList)
      (given : value = .number (some settings.pollMilliseconds))
  | tableSymbol (named : name = "idt_symbol".toList)
      (given : value = .string (some settings.tableSymbol))
  | resetSymbol (named : name = "reset_symbol".toList)
      (given : value = .string (some settings.resetSymbol))
  | threshold (named : name = "log_level".toList)
      (given : value = .string (some settings.threshold))

/-- The name of a field in which settings differ from others. -/
inductive Differs (settings others : Settings) (name : Text) : Prop
  | bootDirectory (named : name = "boot_dir".toList)
      (differs : settings.bootDirectory ≠ others.bootDirectory)
  | hypervisor (named : name = "hypervisor".toList)
      (differs : settings.hypervisor ≠ others.hypervisor)
  | bus (named : name = "transport".toList) (differs : settings.bus ≠ others.bus)
  | loadAddress (named : name = "initial_load_address".toList)
      (differs : settings.loadAddress ≠ others.loadAddress)
  | pollMilliseconds (named : name = "poll_interval_ms".toList)
      (differs : settings.pollMilliseconds ≠ others.pollMilliseconds)
  | tableSymbol (named : name = "idt_symbol".toList)
      (differs : settings.tableSymbol ≠ others.tableSymbol)
  | resetSymbol (named : name = "reset_symbol".toList)
      (differs : settings.resetSymbol ≠ others.resetSymbol)
  | threshold (named : name = "log_level".toList)
      (differs : settings.threshold ≠ others.threshold)

def names : List Text :=
  ["boot_dir", "hypervisor", "transport", "initial_load_address", "poll_interval_ms",
    "idt_symbol", "reset_symbol", "log_level"].map String.toList

/-- Members that override the defaults to these settings. -/
def Overrides (settings : Settings) (members : List (Option Text × Json)) : Prop :=
  Json.Overrides names settings.Gives (settings.Differs {}) members

/-- All names are texts, also those inside the settings of the bus. -/
def Named (members : List (Option Text × Json)) : Prop :=
  Json.Named members ∧
    ∀ inner, (some "transport".toList, .object inner) ∈ members → Json.Named inner

/-- The settings when the names in `given` were taken over from a target. -/
def merged (target start : Settings) (given : List Text) : Settings where
  bootDirectory := Json.pick given "boot_dir".toList target.bootDirectory start.bootDirectory
  hypervisor := Json.pick given "hypervisor".toList target.hypervisor start.hypervisor
  bus := Json.pick given "transport".toList target.bus start.bus
  loadAddress :=
    Json.pick given "initial_load_address".toList target.loadAddress start.loadAddress
  pollMilliseconds :=
    Json.pick given "poll_interval_ms".toList target.pollMilliseconds start.pollMilliseconds
  tableSymbol := Json.pick given "idt_symbol".toList target.tableSymbol start.tableSymbol
  resetSymbol := Json.pick given "reset_symbol".toList target.resetSymbol start.resetSymbol
  threshold := Json.pick given "log_level".toList target.threshold start.threshold

/-- A member that gives a field and whose value has no nameless member. -/
def GivesNamed (settings : Settings) (name : Text) (value : Json) : Prop :=
  settings.Gives name value ∧ ∀ members, value = .object members → Json.Named members

theorem merges {target : Settings} (start : Settings)
    (load : target.loadAddress < 0x10000000000000000)
    (poll : target.pollMilliseconds < 0x10000000000000000) :
    Json.Merges fields target.GivesNamed (target.Differs start) start target
      (target.merged start) where
  start := rfl
  step := by
    intro name value given gives
    obtain ⟨gives, texts⟩ := gives
    cases gives with
    | bootDirectory named same =>
        subst named same
        refine ⟨_, rfl, Json.set_of_read rfl ?_⟩
        simp (disch := decide) only [merged, Json.pick_self, Json.pick_apart]
    | hypervisor named same =>
        subst named same
        refine ⟨_, rfl, Json.set_of_read rfl ?_⟩
        simp (disch := decide) only [merged, Json.pick_self, Json.pick_apart]
    | bus named members same overrides =>
        subst named same
        have read := BusSettings.record_of_overrides overrides (texts members rfl)
        refine ⟨_, rfl, Json.set_of_read read ?_⟩
        simp (disch := decide) only [merged, Json.pick_self, Json.pick_apart]
    | loadAddress named same =>
        subst named same
        refine ⟨_, rfl, Json.set_of_read (Json.below_of_lt load) ?_⟩
        simp (disch := decide) only [merged, Json.pick_self, Json.pick_apart]
    | pollMilliseconds named same =>
        subst named same
        refine ⟨_, rfl, Json.set_of_read (Json.below_of_lt poll) ?_⟩
        simp (disch := decide) only [merged, Json.pick_self, Json.pick_apart]
    | tableSymbol named same =>
        subst named same
        refine ⟨_, rfl, Json.set_of_read rfl ?_⟩
        simp (disch := decide) only [merged, Json.pick_self, Json.pick_apart]
    | resetSymbol named same =>
        subst named same
        refine ⟨_, rfl, Json.set_of_read rfl ?_⟩
        simp (disch := decide) only [merged, Json.pick_self, Json.pick_apart]
    | threshold named same =>
        subst named same
        refine ⟨_, rfl, Json.set_of_read rfl ?_⟩
        simp (disch := decide) only [merged, Json.pick_self, Json.pick_apart]
  target := by
    intro given all
    rw [merged, Json.pick_told fun other => all _ (.bootDirectory rfl other),
      Json.pick_told fun other => all _ (.hypervisor rfl other),
      Json.pick_told fun other => all _ (.bus rfl other),
      Json.pick_told fun other => all _ (.loadAddress rfl other),
      Json.pick_told fun other => all _ (.pollMilliseconds rfl other),
      Json.pick_told fun other => all _ (.tableSymbol rfl other),
      Json.pick_told fun other => all _ (.resetSymbol rfl other),
      Json.pick_told fun other => all _ (.threshold rfl other)]
  known := by
    intro name differs
    have listed : fields.map Json.Field.name = names := rfl
    rw [listed]
    cases differs <;> (rename_i named _; rw [named]; decide)

/-- Members with texts for names lead from the defaults to the settings they override to. -/
theorem record_of_overrides {settings : Settings} {members : List (Option Text × Json)}
    (load : settings.loadAddress < 0x10000000000000000)
    (poll : settings.pollMilliseconds < 0x10000000000000000)
    (overrides : settings.Overrides members) (named : Named members) :
    Json.record? fields {} (.object members) = some settings := by
  have given : ∀ name ∈ names, ∀ value, (some name, value) ∈ members →
      settings.GivesNamed name value := by
    intro name known value listed
    have gives := overrides.given name known value listed
    refine ⟨gives, fun inner same => ?_⟩
    cases gives with
    | bus other => exact named.2 inner (by rw [← other, ← same]; exact listed)
    | _ _ given => rw [given] at same; cases same
  exact Json.set_members_of_overrides (merges {} load poll)
    ⟨overrides.once, given, overrides.told⟩ named.1

theorem record_of_nameless {members : List (Option Text × Json)} (nameless : ¬Named members) :
    Json.record? fields ({} : Settings) (.object members) = none := by
  by_cases named : Json.Named members
  · obtain ⟨inner, missed⟩ := Classical.not_forall.mp fun clean => nameless ⟨named, clean⟩
    obtain ⟨listed, within⟩ := Classical.not_imp.mp missed
    have unset : Json.record? BusSettings.fields {} (.object inner) = none :=
      Json.set_members_nameless within [] _
    have located : fields.find? (fun field => field.name = "transport".toList) = some fields[2] :=
      rfl
    exact Json.set_members_unset located (fun _ => congrArg (Option.bind · _) unset) listed [] _
  · exact Json.set_members_nameless named [] _

end Settings

end RemoteBoot
