import RemoteBoot.Command.ToolCommand

/-!
# The command lines of the maintenance program

Which command lines there are and what each of them asks for, said without the parser.  The parser
accepts exactly these, and a number is taken as it was typed or not at all.
-/

set_option autoImplicit false

namespace RemoteBoot.Command.ToolCommand

/-- A command line and what it asks for; a number that is kept in fewer bits is the typed one. -/
inductive Asks : List Text → ToolCommand → Prop where
  | rebootDefault : Asks ["reboot".toList] (.reboot none)
  | reboot (path : Text) : Asks ["reboot".toList, path] (.reboot (some ⟨path⟩))
  | load (path : Text) : Asks ["load".toList, path] (.load ⟨path⟩)
  | peekWord {place : Text} {address : Nat} (typed : Numeral.argument? place = some address) :
      Asks ["peek".toList, place] (.peek address 4)
  | peek {place size : Text} {address length : Nat}
      (typed : Numeral.argument? place = some address)
      (sized : Numeral.argument? size = some length) (small : length < 0x100000000) :
      Asks ["peek".toList, place, size] (.peek address length)
  | poke {place text : Text} {address number : Nat} {word : UInt32}
      (typed : Numeral.argument? place = some address) (aligned : address % 4 = 0)
      (valued : Numeral.argument? text = some number) (small : number < 0x100000000)
      (exact : word.toNat = number) : Asks ["poke".toList, place, text] (.poke address word)
  | rom : Asks ["crom".toList] .rom
  | interrupt {text : Text} {number : Nat} {vector : UInt8}
      (typed : Numeral.argument? text = some number) (small : number < 256)
      (exact : vector.toNat = number) : Asks ["extint".toList, text] (.interrupt vector)

theorem number_iff (text : Text) (value : Nat) :
    number text = .ok value ↔ Numeral.argument? text = some value := by
  rw [number]
  cases Numeral.argument? text <;> simp

theorem number_below_iff (bound : Nat) (text : Text) (value : Nat) :
    numberBelow bound text = .ok value ↔
      Numeral.argument? text = some value ∧ value < bound := by
  rw [← number_iff, numberBelow]
  cases number text with
  | error error => simp [bind, Except.bind]
  | ok read =>
      simp only [bind, Except.bind, Except.ok.injEq]
      split
      · next small =>
          refine ⟨fun made => ?_, fun ⟨same, _⟩ => congrArg Except.ok same⟩
          obtain rfl := Except.ok.inj made
          exact ⟨rfl, small⟩
      · next large =>
          refine ⟨fun made => ?_, fun ⟨same, small⟩ => absurd (same ▸ small) large⟩
          cases made

/-- Two readers in turn succeed when both do. -/
theorem bind_ok_iff {α β : Type} {first : Except UsageError α} {next : α → Except UsageError β}
    {value : β} :
    (first >>= next) = .ok value ↔ ∃ middle, first = .ok middle ∧ next middle = .ok value := by
  cases first <;> simp [bind, Except.bind]

theorem named_of_string {command : Text} {name : String} (same : String.ofList command = name) :
    command = name.toList := by
  rw [← same, String.toList_ofList]

theorem asks_of_parsed {arguments : List Text} {command : ToolCommand}
    (parsed : parse arguments = .ok command) : Asks arguments command := by
  cases arguments with
  | nil => cases parsed
  | cons name arguments =>
      rw [parse] at parsed
      generalize named : String.ofList name = string at parsed
      rw [named_of_string named]
      unfold ofName at parsed
      split at parsed
      · cases parsed
        exact .rebootDefault
      · cases parsed
        exact .reboot _
      · cases parsed
        exact .load _
      · obtain ⟨address, typed, made⟩ := bind_ok_iff.mp parsed
        cases made
        exact .peekWord ((number_iff _ _).mp typed)
      · obtain ⟨address, typed, sized⟩ := bind_ok_iff.mp parsed
        obtain ⟨length, counted, made⟩ := bind_ok_iff.mp sized
        cases made
        obtain ⟨read, small⟩ := (number_below_iff _ _ _).mp counted
        exact .peek ((number_iff _ _).mp typed) read small
      · obtain ⟨address, typed, valued⟩ := bind_ok_iff.mp parsed
        split at valued
        · cases valued
        · next aligned =>
            obtain ⟨number, counted, made⟩ := bind_ok_iff.mp valued
            cases made
            obtain ⟨read, small⟩ := (number_below_iff _ _ _).mp counted
            refine .poke ((number_iff _ _).mp typed) (by omega) read small ?_
            exact UInt32.toNat_ofNat_of_lt small
      · cases parsed
        exact .rom
      · obtain ⟨number, counted, made⟩ := bind_ok_iff.mp parsed
        cases made
        obtain ⟨read, small⟩ := (number_below_iff _ _ _).mp counted
        exact .interrupt read small (UInt8.toNat_ofNat_of_lt small)
      · cases parsed

theorem parsed_of_asks {arguments : List Text} {command : ToolCommand}
    (asks : Asks arguments command) : parse arguments = .ok command := by
  cases asks with
  | rebootDefault => rfl
  | reboot path => rfl
  | load path => rfl
  | rom => rfl
  | peekWord typed =>
      exact bind_ok_iff.mpr ⟨_, (number_iff _ _).mpr typed, rfl⟩
  | peek typed sized small =>
      exact bind_ok_iff.mpr ⟨_, (number_iff _ _).mpr typed,
        bind_ok_iff.mpr ⟨_, (number_below_iff _ _ _).mpr ⟨sized, small⟩, rfl⟩⟩
  | poke typed aligned valued small exact =>
      subst exact
      refine bind_ok_iff.mpr ⟨_, (number_iff _ _).mpr typed, ?_⟩
      rw [if_neg (fun unaligned => unaligned aligned)]
      refine bind_ok_iff.mpr ⟨_, (number_below_iff _ _ _).mpr ⟨valued, small⟩, ?_⟩
      rw [UInt32.ofNat_toNat]
      rfl
  | interrupt typed small exact =>
      subst exact
      refine bind_ok_iff.mpr ⟨_, (number_below_iff _ _ _).mpr ⟨typed, small⟩, ?_⟩
      rw [UInt8.ofNat_toNat]
      rfl

theorem parse_iff (arguments : List Text) (command : ToolCommand) :
    parse arguments = .ok command ↔ Asks arguments command :=
  ⟨asks_of_parsed, parsed_of_asks⟩

/-- What no command line asks for is refused. -/
theorem parse_refused {arguments : List Text} (nothing : ∀ command, ¬ Asks arguments command) :
    ∃ error, parse arguments = .error error := by
  cases parsed : parse arguments with
  | error error => exact ⟨error, rfl⟩
  | ok command => exact absurd (asks_of_parsed parsed) (nothing command)

end RemoteBoot.Command.ToolCommand
