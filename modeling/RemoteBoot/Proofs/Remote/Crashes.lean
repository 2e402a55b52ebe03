import RemoteBoot.Checked
import RemoteBoot.Multiboot.ControlBlock
import RemoteBoot.Node.Basic
import RemoteBoot.Proofs.Remote.Actions
import RemoteBoot.Remote.Disturbed
import RemoteBoot.Rom.Discovery

/-!
# Which crashes stop an action

A sequence of actions crashes with a crash of one of them.  The node in memory never crashes, also
behind a schedule of faults; what crashes in front of it is a word access off a word boundary.
-/

set_option autoImplicit false

namespace RemoteBoot

open Multiboot

variable {σ τ α β : Type}

/-- Every crash that stops the action is an allowed one. -/
structure Trips (allowed : Crash → Prop) (action : Engine σ α) : Prop where
  own : ∀ node crash, (action node).result = .error (.crash crash) → allowed crash

namespace Trips

variable {allowed : Crash → Prop}

theorem pure (value : α) : Trips allowed (pure value : Engine σ α) := by
  constructor
  intro node crash stopped
  cases stopped

theorem note (level : Level) (origin : Origin) (text : String) :
    Trips allowed (Engine.note level origin text : Engine σ Unit) := by
  constructor
  intro node crash stopped
  cases stopped

theorem fail (fault : Fault) : Trips allowed (Engine.fail fault : Engine σ α) := by
  constructor
  intro node crash stopped
  cases stopped

theorem of_except (result : Except Fault α) :
    Trips allowed (Engine.ofExcept result : Engine σ α) := by
  cases result with
  | ok value => exact pure value
  | error fault => exact fail fault

theorem of_checked {result : Except Stop α}
    (own : ∀ crash, result = .error (.crash crash) → allowed crash) :
    Trips allowed (Engine.ofChecked result : Engine σ α) :=
  ⟨fun _ => own⟩

theorem sum (own : allowed .sumOverflow) (left right : Nat) :
    Trips allowed (Engine.ofChecked (Checked.sum left right) : Engine σ Nat) := by
  apply of_checked
  intro crash failed
  cases (Checked.sum_error failed).1
  exact own

theorem of_noted {computation : Noted α}
    (own : ∀ crash, computation.result = .error (.crash crash) → allowed crash) :
    Trips allowed (Engine.ofNoted computation : Engine σ α) := by
  constructor
  intro node crash stopped
  exact own crash stopped

theorem bind {first : Engine σ α} {next : α → Engine σ β} (begins : Trips allowed first)
    (rest : ∀ value, Trips allowed (next value)) : Trips allowed (first >>= next) := by
  constructor
  intro node crash stopped
  cases reached : (first node).result with
  | ok value =>
      rw [(Engine.bind_of_ok next reached).1] at stopped
      exact (rest value).own _ crash stopped
  | error stop =>
      rw [(Engine.bind_of_error next reached).1] at stopped
      cases stopped
      exact begins.own node crash reached

theorem mono {wider : Crash → Prop} {action : Engine σ α} (trips : Trips allowed action)
    (also : ∀ crash, allowed crash → wider crash) : Trips wider action :=
  ⟨fun node crash stopped => also crash (trips.own node crash stopped)⟩

theorem attempt {action : Engine σ α} (trips : Trips allowed action) :
    Trips allowed (Engine.attempt action) := by
  constructor
  intro node crash stopped
  rw [Engine.result_attempt] at stopped
  rcases reached : (action node).result with (fault | other) | value
  all_goals
    rw [reached] at stopped
    cases stopped
  exact trips.own node crash reached

end Trips

/-- The transfers of the remote crash in allowed ways only. -/
structure Remote.CrashesIn (allowed : Crash → Prop) (remote : Remote σ) : Prop where
  fetch : ∀ address length, Trips allowed (remote.fetch address length)
  store : ∀ address bytes, Trips allowed (remote.store address bytes)

theorem Remote.CrashesIn.mono {allowed wider : Crash → Prop} {remote : Remote σ}
    (smooth : remote.CrashesIn allowed) (also : ∀ crash, allowed crash → wider crash) :
    remote.CrashesIn wider :=
  ⟨fun address length => (smooth.fetch address length).mono also,
    fun address bytes => (smooth.store address bytes).mono also⟩

namespace Remote.CrashesIn

variable {allowed : Crash → Prop} {remote : Remote σ} (smooth : remote.CrashesIn allowed)

include smooth

theorem store_word {address : Nat} (own : address % 4 ≠ 0 → allowed (.misaligned address))
    (word : UInt32) : Trips allowed (remote.storeWord address word) := by
  unfold Remote.storeWord
  split
  · next unaligned =>
    constructor
    intro node crash stopped
    cases stopped
    exact own unaligned
  · exact smooth.store address _

theorem fetch_control_block (address : Nat) :
    Trips allowed (ControlBlock.fetch remote address) := by
  apply (smooth.fetch _ _).bind
  intro bytes
  cases ControlBlock.ofBytes? bytes with
  | none => exact Trips.fail _
  | some block => exact Trips.pure block

theorem read_quadlet (index : Nat) : Trips allowed (Rom.readQuadlet remote index) := by
  apply (smooth.fetch _ _).bind
  intro bytes
  split
  · exact Trips.pure _
  · exact Trips.fail _

theorem discover : Trips allowed (Rom.discover remote) := by
  have identity : Trips allowed (Rom.readIdentity remote) := by
    apply (smooth.read_quadlet _).bind
    intro vendor
    apply (smooth.read_quadlet _).bind
    intro model
    exact Trips.pure _
  apply identity.attempt.bind
  intro attempted
  cases attempted with
  | ok discovery => exact Trips.pure discovery
  | error fault =>
      apply (Trips.note _ _ _).bind
      intro noted
      exact Trips.pure _

theorem control_block_address : Trips allowed (Rom.controlBlockAddress remote) := by
  apply (smooth.read_quadlet _).bind
  intro quadlet
  exact Trips.pure _

end Remote.CrashesIn

theorem node_never_crashes {allowed : Crash → Prop} : Node.remote.CrashesIn allowed := by
  constructor
  · intro address length
    constructor
    intro node crash stopped
    simp only [Remote.fetch, Transfer.toEngine, Node.remote, Node.read] at stopped
    split at stopped <;> cases stopped
  · intro address bytes
    constructor
    intro node crash stopped
    simp only [Remote.store, Transfer.toEngine, Node.remote, Node.write] at stopped
    split at stopped <;> cases stopped

/-- Faults in front of a remote add no crash. -/
theorem disturbed_crashes_in {allowed : Crash → Prop} {remote : Remote σ}
    (smooth : remote.CrashesIn allowed) (schedule : Schedule τ) :
    (remote.disturbed schedule).CrashesIn allowed := by
  constructor
  · intro address length
    constructor
    rintro ⟨node, state⟩ crash stopped
    have calm := (smooth.fetch address length).own node crash
    rcases decided : schedule.onRead address length state with ⟨verdict, later⟩
    simp only [Remote.fetch, Transfer.toEngine, Remote.disturbed, decided] at stopped calm
    cases verdict with
    | pass => exact calm stopped
    | fail fault => cases stopped
    | cut limit =>
        cases left : (remote.read address length node).result with
        | ok bytes =>
            rw [left] at stopped
            cases stopped
        | error stop =>
            rw [left] at stopped calm
            cases stopped
            exact calm rfl
  · intro address bytes
    constructor
    rintro ⟨node, state⟩ crash stopped
    have calm := (smooth.store address bytes).own node crash
    rcases decided : schedule.onWrite address bytes state with ⟨verdict, later⟩
    simp only [Remote.store, Transfer.toEngine, Remote.disturbed, decided] at stopped calm
    cases verdict with
    | pass => exact calm stopped
    | fail fault => cases stopped

end RemoteBoot
