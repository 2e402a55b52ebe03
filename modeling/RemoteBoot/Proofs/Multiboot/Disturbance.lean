import RemoteBoot.Proofs.Multiboot.Arming
import RemoteBoot.Proofs.Remote.Disturbance

/-!
# A loader on a disturbed node

Under faults a push is made whole or not at all.  Arming succeeds as on the calm node, or it stops
in front of the go signal with a part of what publishing writes.
-/

set_option autoImplicit false

namespace RemoteBoot.Multiboot.Loader

open Node

variable {τ : Type} (schedule : Schedule τ)

theorem push_shadows (loader : Loader) (payload : Bytes) (commandLine : Text) :
    Shadows (loader.push (remote.disturbed schedule) payload commandLine)
      (loader.push remote payload commandLine) := by
  apply (Shadows.of_except _).bind
  intro opened
  apply (Shadows.of_except _).bind
  intro start
  apply (Shadows.of_checked _).bind
  intro stop
  apply (Shadows.of_except _).bind
  intro fits
  apply (Shadows.store schedule _ _).bind
  intro stored
  apply (Shadows.note _ _ _).bind
  intro noted
  apply (Shadows.of_checked _).bind
  intro cursor
  exact Shadows.pure _

theorem publish_shadows (loader : Loader) :
    Shadows (loader.publish (remote.disturbed schedule)) (loader.publish remote) := by
  unfold publish
  cases loader.phase with
  | armed => exact Shadows.fail _
  | idle => exact Shadows.fail _
  | pushing =>
      apply (Shadows.of_checked _).bind
      intro base
      apply (Shadows.of_checked _).bind
      intro block
      apply (Shadows.note _ _ _).bind
      intro noted
      apply (Shadows.store schedule _ _).bind
      intro stored
      apply (Shadows.fetch_control_block schedule _).bind
      intro control
      apply (Shadows.store_word schedule _ _).bind
      intro flagged
      apply (Shadows.of_except _).bind
      intro address
      exact Shadows.store_word schedule _ _

theorem signal_disturbed (loader : Loader) (node : Node) (state : τ) :
    Agrees (loader.signal (remote.disturbed schedule)) (loader.signal remote) node state ∨
      Halts (loader.signal (remote.disturbed schedule)) node state := by
  have noted : ∀ (node : Node) (state : τ) (level : Level) (origin : Origin) (text : String),
      Agrees (Engine.note level origin text) (Engine.note level origin text) node state :=
    fun _ _ _ _ _ => ⟨rfl, rfl⟩
  rcases store_word_disturbed schedule (loader.controlBlock + ControlBlock.modsCountOffset)
    (UInt32.ofNat loader.modules.length) node state with agrees | halts
  · refine Or.inl ((noted _ _ _ _ _).bind fun _ _ => agrees.bind fun _ _ => ?_)
    split
    · exact (noted _ _ _ _ _).bind fun _ _ => ⟨rfl, rfl⟩
    · exact ⟨rfl, rfl⟩
  · exact Or.inr ((halts.bind _).note_bind _ _ _)

theorem agrees_or_halts_of_except {α β : Type} {result : Except Fault α}
    {next' : α → Engine (Node × τ) β} {next : α → Engine Node β} {node : Node} {state : τ}
    (rest : ∀ value, Agrees (next' value) (next value) node state ∨ Halts (next' value) node state) :
    Agrees (Engine.ofExcept result >>= next') (Engine.ofExcept result >>= next) node state ∨
      Halts (Engine.ofExcept result >>= next') node state := by
  cases result with
  | ok value => exact rest value
  | error fault => exact Or.inl ⟨rfl, rfl⟩

theorem agrees_or_halts_of_checked {α β : Type} {result : Except Stop α}
    {next' : α → Engine (Node × τ) β} {next : α → Engine Node β} {node : Node} {state : τ}
    (rest : ∀ value, Agrees (next' value) (next value) node state ∨ Halts (next' value) node state) :
    Agrees (Engine.ofChecked result >>= next') (Engine.ofChecked result >>= next) node state ∨
      Halts (Engine.ofChecked result >>= next') node state := by
  cases result with
  | ok value => exact rest value
  | error stop => exact Or.inl ⟨rfl, rfl⟩

theorem push_disturbed (loader : Loader) (payload : Bytes) (commandLine : Text) (node : Node)
    (state : τ) :
    Agrees (loader.push (remote.disturbed schedule) payload commandLine)
        (loader.push remote payload commandLine) node state ∨
      Halts (loader.push (remote.disturbed schedule) payload commandLine) node state := by
  apply agrees_or_halts_of_except
  intro opened
  apply agrees_or_halts_of_except
  intro start
  apply agrees_or_halts_of_checked
  intro stop
  apply agrees_or_halts_of_except
  intro fits
  rcases store_disturbed schedule loader.cursor payload node state with agrees | halts
  · refine Or.inl (agrees.bind fun _ _ => ?_)
    generalize alignUp alignment _ = cursor
    cases cursor <;> exact ⟨rfl, rfl⟩
  · exact Or.inr (halts.bind _)

/-- If the action stops, it leaves the node as it was. -/
def StopsStill {α : Type} (action : Engine Node α) (node : Node) : Prop :=
  ∀ stop, (action node).result = .error stop → (action node).node = node

theorem push_stops_still (loader : Loader) (payload : Bytes) (commandLine : Text) (node : Node) :
    StopsStill (loader.push remote payload commandLine) node := by
  intro other stopped
  by_cases armed : loader.phase = .armed
  · rw [push, ensureOpen, if_pos armed]
    rfl
  · by_cases fits : loader.cursor + payload.length < 0x100000000
    · rw [push_of_fits remote armed commandLine fits] at stopped ⊢
      cases present : node.absent with
      | true =>
          have failed : (remote.store loader.cursor payload node).result = .error _ :=
            congrArg Outcome.result (store_absent present loader.cursor payload)
          rw [(Engine.bind_of_error _ failed).2, store_absent present]
      | false =>
          -- On a node that is there nothing is left to fail.
          have stored := (returns_store present loader.cursor payload).result
          rw [(Engine.bind_of_ok _ stored).1] at stopped
          cases stopped
    · obtain ⟨stop, refused⟩ := push_of_large remote armed commandLine (Nat.not_lt.mp fits)
      rw [refused]
      rfl

theorem push_disturbed_still {loader : Loader} {payload : Bytes} {commandLine : Text} {node : Node}
    {state : τ} {stop : Stop}
    (stopped : (loader.push (remote.disturbed schedule) payload commandLine (node, state)).result =
      .error stop) :
    (loader.push (remote.disturbed schedule) payload commandLine (node, state)).node.1 = node := by
  rcases push_disturbed schedule loader payload commandLine node state with agrees | halts
  · rw [agrees.node]
    exact push_stops_still loader payload commandLine node stop (agrees.result.symm.trans stopped)
  · exact halts.node

section Arm

variable {loader : Loader} {block : Bytes} {node : Node}

theorem arm_returns (present : node.absent = false) (pushing : loader.phase = .pushing)
    (made : loader.descriptorBlock = .ok block) (aligned : loader.controlBlock % 4 = 0) :
    Returns (loader.arm remote) node { loader with phase := .armed }
      (loader.publication node.memory block ++ [loader.goSignal]) := by
  rw [arm_eq_publish_signal]
  apply (publish_returns present pushing made aligned).bind
  intro published took
  exact signal_returns (took.present present) aligned

/-- Arming is stopped in front of the go signal or not at all. -/
theorem arm_disturbed (present : node.absent = false) (pushing : loader.phase = .pushing)
    (made : loader.descriptorBlock = .ok block) (aligned : loader.controlBlock % 4 = 0)
    (state : τ) :
    Agrees (loader.arm (remote.disturbed schedule)) (loader.arm remote) node state ∨
      (∃ stop, (loader.arm (remote.disturbed schedule) (node, state)).result = .error stop) ∧
        ∃ issued, issued <+: loader.publication node.memory block ∧
          node.Took issued (loader.arm (remote.disturbed schedule) (node, state)).node.1 := by
  have calm := publish_returns present pushing made aligned
  rw [arm_eq_publish_signal, arm_eq_publish_signal]
  rcases (publish_shadows schedule loader).follows node state with agrees | broken
  · rcases signal_disturbed schedule loader (loader.publish remote node).node
      (loader.publish (remote.disturbed schedule) (node, state)).node.2 with same | halts
    · exact Or.inl (agrees.bind fun _ _ => same)
    · -- Everything was published, and the go signal was lost.
      have left := Engine.bind_of_ok (fun _ => loader.signal (remote.disturbed schedule))
        (agrees.result.trans calm.result)
      have arrived : (loader.publish (remote.disturbed schedule) (node, state)).node =
          ((loader.publish remote node).node,
            (loader.publish (remote.disturbed schedule) (node, state)).node.2) :=
        Prod.ext agrees.node rfl
      rw [arrived] at left
      rw [left.1, left.2, halts.node]
      exact Or.inr ⟨halts.result, _, List.prefix_refl _, calm.took⟩
  · obtain ⟨stop, failed⟩ := broken.result
    obtain ⟨issued, took⟩ := broken.took
    have left := Engine.bind_of_error (fun _ => loader.signal (remote.disturbed schedule)) failed
    have behind := broken.behind
    rw [took.log, calm.took.log] at behind
    rw [left.1, left.2]
    exact Or.inr ⟨⟨stop, rfl⟩, issued, (List.prefix_append_right_inj _).mp behind, took⟩

end Arm

end RemoteBoot.Multiboot.Loader
