import RemoteBoot.Host
import RemoteBoot.Proofs.BusProgram.Splitting
import RemoteBoot.Proofs.Json.Reading
import RemoteBoot.Proofs.Settings.Fields

/-!
# Settings as overridden defaults

A text of an object gives the defaults, overridden field by field.  Whatever the settings of a host
come from, their block has at least one byte, so that no transfer is planned with another one.
-/

set_option autoImplicit false

namespace RemoteBoot.Settings

theorem of_text_of_overrides {settings : Settings} {text : Text}
    {members : List (Option Text × Json)} (filled : settings.bus.blockSize ≠ 0)
    (load : settings.loadAddress < 0x10000000000000000)
    (poll : settings.pollMilliseconds < 0x10000000000000000)
    (document : Json.Document text (.object members)) (overrides : settings.Overrides members)
    (named : Named members) : ofText text = .ok settings := by
  simp only [ofText, (Json.of_text_iff text _).mpr document, Option.bind_some,
    record_of_overrides load poll overrides named, filled, if_false]

theorem of_text_of_unread {text : Text} {json : Json} (document : Json.Document text json)
    (unread : Json.record? fields {} json = none) : ofText text = .error .malformed := by
  simp only [ofText, (Json.of_text_iff text json).mpr document, Option.bind_some, unread]

/-- Settings have a block of at least one byte. -/
def Filled (settings : Settings) : Prop :=
  1 ≤ settings.bus.blockSize.toNat

theorem filled_of_ne_zero {settings : Settings} (other : settings.bus.blockSize ≠ 0) :
    settings.Filled := by
  have code : settings.bus.blockSize.toNat ≠ 0 := fun zero => other (UInt32.toNat_inj.mp zero)
  exact Nat.one_le_iff_ne_zero.mpr code

theorem of_text_filled {text : Text} {settings : Settings} (read : ofText text = .ok settings) :
    settings.Filled := by
  unfold ofText at read
  split at read
  · cases read
  · split at read
    · cases read
    · next other =>
        cases read
        exact filled_of_ne_zero other

theorem of_file_filled {path : Path} {contents : Except ReadFailure Bytes} {settings : Settings}
    (read : ofFile path contents = .ok settings) : settings.Filled := by
  unfold ofFile at read
  split at read
  · cases read
  · split at read
    · cases read
    · split at read
      · next found =>
          cases read
          exact of_text_filled found
      · cases read

/-- A change to something else than the bus leaves the block as it is. -/
theorem filled_of_changed {found : Except Fault Settings} {change : Settings → Settings}
    {settings : Settings} (filled : ∀ settings, found = .ok settings → settings.Filled)
    (changed : (found >>= fun settings => pure (change settings)) = .ok settings)
    (apart : ∀ settings, (change settings).bus = settings.bus) : settings.Filled := by
  cases found with
  | error fault => cases changed
  | ok found =>
      cases changed
      rw [Filled, apart]
      exact filled found rfl

theorem loaded_filled {host : Host} {settings : Settings} (loaded : host.settings = .ok settings) :
    settings.Filled := by
  have defaults : ∀ settings, (pure {} : Except Fault Settings) = .ok settings →
      settings.Filled := by
    rintro _ ⟨⟩
    exact (by decide : 1 ≤ ({} : BusSettings).blockSize.toNat)
  unfold Host.settings at loaded
  -- First whether the environment replaces the level, then where the settings come from.
  split at loaded <;> dsimp only at loaded <;> split at loaded
  · exact filled_of_changed (fun _ => of_file_filled) loaded fun _ => rfl
  · split at loaded
    · exact filled_of_changed (fun _ => of_file_filled) loaded fun _ => rfl
    · exact filled_of_changed defaults loaded fun _ => rfl
  · exact filled_of_changed (fun _ => of_file_filled) loaded fun _ => rfl
  · split at loaded
    · exact filled_of_changed (fun _ => of_file_filled) loaded fun _ => rfl
    · exact filled_of_changed defaults loaded fun _ => rfl

/-- The first call for a transfer uses the block of the settings, if so many bytes are left. -/
theorem planned_with_block {settings : Settings} (filled : settings.Filled) {address length : Nat}
    (some : 0 < length) {spans : List BusProgram.Span}
    (planned : BusProgram.plan settings.bus.blockSize.toNat address length = .ok spans) :
    spans.head?.map BusProgram.Span.blockSize =
      Option.some (min settings.bus.blockSize.toNat length) := by
  obtain ⟨block, used, _, rfl⟩ := BusProgram.spans_of_pos planned some
  rw [List.head?_cons, Option.map_some, used, Nat.max_eq_left filled]

section Samples

/-- An unknown member in front, one field of the bus, and a path with escapes. -/
def partialText : Text :=
  ("\x7b\"x\":[1e3,\"\\ud800\"], \"transport\":\x7b\"node\":3\x7d," ++
    "\"hypervisor\":\"\\/boot\\/h\"\x7d").toList

def partialBus : List (Option Text × Json) :=
  [(some "node".toList, .number (some 3))]

def partialMembers : List (Option Text × Json) := [
  (some "x".toList, .array [.number none, .string none]),
  (some "transport".toList, .object partialBus),
  (some "hypervisor".toList, .string (some "/boot/h".toList))]

def partialSettings : Settings :=
  { hypervisor := .ofString "/boot/h", bus := { node := 3 } }

theorem partial_document : Json.Document partialText (.object partialMembers) :=
  (Json.of_text_iff _ _).mp (by cbv)

theorem mem_partial_iff (name : Text) (value : Json) :
    (some name, value) ∈ partialMembers ↔
      name = "x".toList ∧ value = .array [.number none, .string none] ∨
      name = "transport".toList ∧ value = .object partialBus ∨
      name = "hypervisor".toList ∧ value = .string (some "/boot/h".toList) := by
  simp only [partialMembers, List.mem_cons, List.not_mem_nil, or_false, Prod.mk.injEq,
    Option.some.injEq]

theorem partial_bus_overrides : partialSettings.bus.Overrides partialBus where
  once := by decide
  given := by
    intro name known value listed
    cases List.mem_singleton.mp listed
    exact .node rfl rfl
  told := by
    intro name differs
    cases differs with
    | node named => rw [named]; decide
    | _ _ differs => exact absurd rfl differs

theorem partial_overrides : partialSettings.Overrides partialMembers where
  once := by decide
  given := by
    intro name known value listed
    rcases (mem_partial_iff name value).mp listed with ⟨rfl, rfl⟩ | ⟨rfl, rfl⟩ | ⟨rfl, rfl⟩
    · exact absurd known (by decide)
    · exact .bus rfl partialBus rfl partial_bus_overrides
    · exact .hypervisor rfl rfl
  told := by
    intro name differs
    cases differs with
    | bus named => rw [named]; decide
    | hypervisor named => rw [named]; decide
    | _ _ differs => exact absurd rfl differs

theorem partial_named : Named partialMembers := by
  refine ⟨by decide, fun inner listed => ?_⟩
  rcases (mem_partial_iff _ _).mp listed with ⟨other, _⟩ | ⟨_, same⟩ | ⟨other, _⟩
  · exact absurd other (by decide)
  · cases same
    decide
  · exact absurd other (by decide)

/-- Half of a surrogate pair as a name. -/
def halfPairText : Text :=
  "\x7b\"\\ud800\":0\x7d".toList

def halfPairMembers : List (Option Text × Json) :=
  [(none, .number (some 0))]

theorem half_pair_document : Json.Document halfPairText (.object halfPairMembers) :=
  (Json.of_text_iff _ _).mp (by cbv)

theorem half_pair_overrides : ({} : Settings).Overrides halfPairMembers where
  once := by decide
  given := by
    intro name _ value listed
    cases List.mem_singleton.mp listed
  told := by
    intro name differs
    cases differs <;> exact absurd rfl ‹_ ≠ _›

theorem half_pair_nameless : ¬Named halfPairMembers :=
  fun named => named.1 List.mem_cons_self

end Samples

/-- Every text of an object that overrides the defaults to settings is read as these settings, in
whatever order and between whatever else, if all names are texts; an object with another name is
refused.  No text gives blocks without bytes, so a host uses the block that it has loaded. -/
theorem objects_override_defaults :
    (∀ (settings : Settings) (text : Text) (members : List (Option Text × Json)),
      settings.bus.blockSize ≠ 0 → settings.loadAddress < 0x10000000000000000 →
      settings.pollMilliseconds < 0x10000000000000000 → Json.Document text (.object members) →
      settings.Overrides members →
      (Named members → ofText text = .ok settings) ∧
        (¬Named members → ofText text = .error .malformed)) ∧
    (∀ text settings, ofText text = .ok settings → 1 ≤ settings.bus.blockSize.toNat) ∧
    ∀ (host : Host) settings, host.settings = .ok settings →
      max settings.bus.blockSize.toNat 1 = settings.bus.blockSize.toNat ∧
      ∀ address length, 0 < length →
        (address + length ≤ 0x10000000000000000 →
          ∃ spans, BusProgram.plan settings.bus.blockSize.toNat address length = .ok spans) ∧
        ∀ spans, BusProgram.plan settings.bus.blockSize.toNat address length = .ok spans →
          spans.head?.map BusProgram.Span.blockSize =
            some (min settings.bus.blockSize.toNat length) := by
  refine ⟨?_, fun text settings read => of_text_filled read, ?_⟩
  · intro settings text members filled load poll document overrides
    exact ⟨of_text_of_overrides filled load poll document overrides,
      fun nameless => of_text_of_unread document (record_of_nameless nameless)⟩
  · intro host settings loaded
    have filled := loaded_filled loaded
    exact ⟨Nat.max_eq_left filled, fun address length some =>
      ⟨BusProgram.plan_ok_of_le _, fun spans => planned_with_block filled some⟩⟩

/-- A part of the fields is given, in a file of the host; and a name is no text. -/
theorem partial_object_is_read :
    let host : Host :=
      { tree := { files := [([Host.settingsFile.spelling], Utf8.encode partialText)] } }
    partialSettings.bus.blockSize ≠ 0 ∧ partialSettings.loadAddress < 0x10000000000000000 ∧
      partialSettings.pollMilliseconds < 0x10000000000000000 ∧
      Json.Document partialText (.object partialMembers) ∧
      partialSettings.Overrides partialMembers ∧ Named partialMembers ∧
      ofText partialText = .ok partialSettings ∧
      1 ≤ partialSettings.bus.blockSize.toNat ∧ host.settings = .ok partialSettings ∧
      max partialSettings.bus.blockSize.toNat 1 = partialSettings.bus.blockSize.toNat ∧
      (∃ spans, BusProgram.plan partialSettings.bus.blockSize.toNat 0 5 = .ok spans ∧
        spans.head?.map BusProgram.Span.blockSize = some 5) ∧
      ¬Named halfPairMembers ∧ ofText halfPairText = .error .malformed := by
  intro host
  obtain ⟨reads, fills, loads⟩ := objects_override_defaults
  have read : ofText partialText = .ok partialSettings :=
    (reads partialSettings partialText partialMembers (by decide) (by decide) (by decide)
      partial_document partial_overrides).1 partial_named
  have refused : ofText halfPairText = .error .malformed :=
    (reads {} halfPairText halfPairMembers (by decide) (by decide) (by decide)
      half_pair_document half_pair_overrides).2 half_pair_nameless
  have loaded : host.settings = .ok partialSettings := by
    have present : host.tree.isFile Host.settingsFile = true := by decide
    have stored : host.contents Host.settingsFile = .ok (Utf8.encode partialText) := rfl
    have file : ofFile Host.settingsFile (host.contents Host.settingsFile) =
        .ok partialSettings := by
      simp only [stored, ofFile, Utf8.decode_encode, read]
    have unset : host.environment = [] := rfl
    simp only [Host.settings, unset, List.lookup_nil, present, if_true, file]
    rfl
  obtain ⟨kept, plans⟩ := loads host partialSettings loaded
  obtain ⟨made, blocks⟩ := plans 0 5 (by decide)
  obtain ⟨spans, planned⟩ := made (by decide)
  exact ⟨by decide, by decide, by decide, partial_document, partial_overrides, partial_named, read,
    fills _ _ read, loaded, kept, ⟨spans, planned, blocks spans planned⟩,
    half_pair_nameless, refused⟩

/-- A name with half of a surrogate pair is no text, and a zero with a sign is no whole number. -/
theorem strange_spellings_are_refused :
    (Json.Document halfPairText (.object halfPairMembers) ∧
      ({} : Settings).Overrides halfPairMembers ∧ ({} : Settings).bus.blockSize ≠ 0 ∧
      ofText halfPairText ≠ .ok {}) ∧
    Json.Document "\x7b\"poll_interval_ms\":-0\x7d".toList
        (.object [(some "poll_interval_ms".toList, .number none)]) ∧
      ofText "\x7b\"poll_interval_ms\":-0\x7d".toList ≠ .ok { pollMilliseconds := 0 } := by
  have signed : Json.Document "\x7b\"poll_interval_ms\":-0\x7d".toList
      (.object [(some "poll_interval_ms".toList, .number none)]) :=
    (Json.of_text_iff _ _).mp (by cbv)
  have unread : Json.record? fields ({} : Settings)
      (.object [(some "poll_interval_ms".toList, .number none)]) = none := rfl
  refine ⟨⟨half_pair_document, half_pair_overrides, by decide, ?_⟩, signed, ?_⟩
  · intro read
    cases read.symm.trans
      (of_text_of_unread half_pair_document (record_of_nameless half_pair_nameless))
  · intro read
    cases read.symm.trans (of_text_of_unread signed unread)

end RemoteBoot.Settings
