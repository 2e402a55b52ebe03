import RemoteBoot.Proofs.Boot.Stages
import RemoteBoot.Proofs.Manifest.Traversal
import RemoteBoot.Proofs.Multiboot.Sums

/-!
# No sum of a session overflows

A session crashes at a sum only if the host has more of a file, of steps or of a command line than a
vector holds.  That the remaining sums fit is carried from step to step: the control block has an
address of 32 bits, and each step adds at most one module.  No transfer of a session reaches over the
last address either.
-/

set_option autoImplicit false

namespace RemoteBoot.Boot

open Multiboot

variable {σ : Type}

/-- What a host can hold of the files of a manifest, its steps and their command lines. -/
structure Holdable (source : FileSource) (manifest root : Path) : Prop where
  files : ∀ file payload, source.read file = .ok payload → payload.length < 0x8000000000000000
  steps : ∀ entries, (Manifest.parse source manifest root).result = .ok entries →
    Descriptor.size * entries.length < 0x8000000000000000
  lines : ∀ entries, (Manifest.parse source manifest root).result = .ok entries →
    ∀ file commandLine, Manifest.Entry.load file commandLine ∈ entries →
      Loader.Holdable commandLine

variable (remote : Remote σ) (source : FileSource) (manifest root : Path) (cursor : Nat)

section Trips

variable {remote} {allowed : Crash → Prop} (smooth : remote.CrashesIn allowed)

include smooth

theorem prepare_trips : Trips allowed (prepare remote cursor) := by
  apply smooth.discover.bind
  intro discovery
  apply (Trips.of_except _).bind
  intro agent
  apply smooth.control_block_address.bind
  intro controlBlock
  apply (Trips.note _ _ _).bind
  intro noted
  exact Loader.begin_trips smooth controlBlock cursor

variable {source}
  (own : ∀ file payload, source.read file = .ok payload → 0x8000000000000000 ≤ payload.length →
    allowed .sumOverflow)

include own

theorem place_trips (loader : Loader) (entry : Manifest.Entry) :
    Trips allowed (place remote (fun _ => source) loader entry) := by
  cases entry with
  | address address => exact Loader.set_address_trips loader address
  | load file commandLine =>
      simp only [place, Engine.look_bind_const]
      cases found : source.read file with
      | error failure => exact Trips.fail _
      | ok payload =>
          apply (Loader.push_trips smooth (own file payload found) loader commandLine).bind
          intro pushed
          exact Trips.pure _

theorem place_all_trips (loader : Loader) (entries : List Manifest.Entry) :
    Trips allowed (placeAll remote (fun _ => source) loader entries) := by
  induction entries generalizing loader with
  | nil => exact Trips.pure loader
  | cons entry entries ih =>
      apply (place_trips smooth own loader entry).bind
      intro placed
      exact ih placed

end Trips

/-- Reading a manifest ends with its steps or with a fault. -/
theorem parse_trips {allowed : Crash → Prop} : Trips allowed
    (Engine.ofNoted (Manifest.parse source manifest root) : Engine σ (List Manifest.Entry)) := by
  apply Trips.of_noted
  intro crash stopped
  obtain ⟨outcome, _, parsed⟩ := Manifest.ends_of_parse source ⟨manifest, root⟩
  rw [show (Manifest.parse source manifest root).result = outcome.mapError Stop.fault from parsed]
    at stopped
  cases outcome <;> cases stopped

section Small

open Loader (Small)

variable {line : Text → Prop} {count : Nat} {loader : Loader}

/-- A step adds at most one module, with a command line of the manifest. -/
theorem small_place (small : Small line count loader) (entry : Manifest.Entry)
    (own : ∀ file commandLine, entry = .load file commandLine → line commandLine) :
    Yields (Small line (count + 1)) (place remote (fun _ => source) loader entry) := by
  cases entry with
  | address address =>
      apply Yields.then_any
      intro opened
      apply Yields.then_any
      intro noted
      exact Yields.pure ⟨small.controlBlock, Nat.le_succ_of_le small.modules, small.lines⟩
  | load file commandLine =>
      rw [place, Engine.look_bind_const]
      cases source.read file with
      | error failure => exact Yields.fail _
      | ok payload =>
          simp only [Loader.push, bind_assoc, pure_bind]
          iterate 7
            apply Yields.then_any
            intro done
          refine Yields.pure ⟨small.controlBlock, ?_, ?_⟩
          · simpa only [Loader.accept, List.length_append, List.length_singleton,
              Nat.add_le_add_iff_right] using small.modules
          · intro module listed
            rcases List.mem_append.mp listed with earlier | last
            · exact small.lines module earlier
            · rw [List.mem_singleton.mp last]
              exact own file commandLine rfl

theorem small_place_all (small : Small line count loader) (entries : List Manifest.Entry)
    (own : ∀ file commandLine, Manifest.Entry.load file commandLine ∈ entries →
      line commandLine) :
    Yields (Small line (count + entries.length))
      (placeAll remote (fun _ => source) loader entries) := by
  induction entries generalizing loader count with
  | nil => exact Yields.pure small
  | cons entry entries ih =>
      have first : Yields (Small line (count + 1))
          (place remote (fun _ => source) loader entry) :=
        small_place remote source small entry fun file commandLine same =>
          own file commandLine (same ▸ List.mem_cons_self)
      apply first.bind
      intro placed after
      rw [List.length_cons, Nat.add_comm entries.length, ← Nat.add_assoc]
      exact ih after fun file commandLine listed =>
        own file commandLine (List.mem_cons_of_mem entry listed)

theorem small_prepare (line : Text → Prop) : Yields (Small line 0) (prepare remote cursor) := by
  apply Yields.then_any
  intro discovery
  apply Yields.then_any
  intro agent
  apply (Yields.control_block_address remote).bind
  intro controlBlock published
  apply Yields.then_any
  intro noted
  unfold Loader.begin
  split
  · exact Yields.fail _
  · apply Yields.then_any
    intro block
    split
    · exact Yields.fail _
    · exact Yields.pure ⟨published, Nat.le_refl 0, by simp⟩

end Small

variable {remote} {source} {manifest root}

theorem load_trips {allowed : Crash → Prop} (smooth : remote.CrashesIn allowed)
    (own : ∀ file payload, source.read file = .ok payload → 0x8000000000000000 ≤ payload.length →
      allowed .sumOverflow) : Trips allowed (load remote source manifest root cursor) := by
  apply (prepare_trips cursor smooth).bind
  intro loader
  apply (parse_trips source manifest root).bind
  intro entries
  apply (Trips.note _ _ _).bind
  intro noted
  exact place_all_trips smooth own loader entries

/-- Behind a manifest that the host can hold every sum of the descriptor block fits. -/
theorem load_yields_block (holdable : Holdable source manifest root) :
    Yields (fun loader => ∀ crash, loader.descriptorBlock ≠ .error (.crash crash))
      (load remote source manifest root cursor) := by
  apply (small_prepare remote cursor Loader.Holdable).bind
  intro loader small
  apply (Yields.of_noted fun entries parsed => parsed).bind
  intro entries parsed
  apply Yields.then_any
  intro noted
  constructor
  intro node after returned
  have placed := (small_place_all remote source small entries
    (holdable.lines entries parsed)).own node after returned
  rw [Nat.zero_add] at placed
  exact placed.block_forms (holdable.steps entries parsed)

variable (remote) (source) (manifest root)

section Below

variable (beyond : Remote σ)

theorem prepare_below : prepare (remote.below beyond) cursor = prepare remote cursor := by
  rw [prepare, prepare, remote.discover_below, remote.control_block_address_below]
  apply congrArg
  funext discovery
  apply congrArg
  funext agent
  apply Yields.bind_congr (Yields.control_block_address remote)
  intro controlBlock published
  simp only [Loader.begin_below remote beyond published]

theorem place_below (loader : Loader) (entry : Manifest.Entry) :
    place (remote.below beyond) (fun _ => source) loader entry =
      place remote (fun _ => source) loader entry := by
  cases entry with
  | address address => rfl
  | load file commandLine => simp only [place, Loader.push_below]

theorem place_all_below (loader : Loader) (entries : List Manifest.Entry) :
    placeAll (remote.below beyond) (fun _ => source) loader entries =
      placeAll remote (fun _ => source) loader entries := by
  induction entries generalizing loader with
  | nil => rfl
  | cons entry entries ih =>
      rw [placeAll, placeAll, place_below]
      apply congrArg
      funext placed
      exact ih placed

/-- Whatever happens to transfers over the last address, a session makes none. -/
theorem run_below :
    run (remote.below beyond) source manifest root cursor =
      run remote source manifest root cursor := by
  simp only [run, runLive, Engine.look_bind_const, prepare_below, place_all_below]
  apply Yields.bind_congr (small_prepare remote cursor fun _ => True)
  intro loader small
  apply congrArg
  funext entries
  apply congrArg
  funext noted
  apply Yields.bind_congr (small_place_all remote source small entries fun _ _ _ => trivial)
  intro placed after
  rw [Loader.arm_below remote beyond after.controlBlock]

end Below

end RemoteBoot.Boot
