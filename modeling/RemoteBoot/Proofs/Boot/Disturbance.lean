import RemoteBoot.Proofs.Boot.Stages
import RemoteBoot.Proofs.Multiboot.Disturbance

/-!
# Sessions on a disturbed node

Every stage of a session on a disturbed node shadows the stage on the calm node.  The go signal is
a single write, which comes whole or not at all, so a session on a disturbed node either succeeds
as on the calm node or stops in front of the go signal.
-/

set_option autoImplicit false

namespace RemoteBoot.Boot

open Multiboot Node

variable {τ : Type} (schedule : Schedule τ)

theorem begin_shadows (controlBlock cursor : Nat) :
    Shadows (Loader.begin (remote.disturbed schedule) controlBlock cursor)
      (Loader.begin remote controlBlock cursor) := by
  unfold Loader.begin
  split
  · exact Shadows.fail _
  · apply (Shadows.fetch_control_block schedule controlBlock).bind
    intro block
    split
    · exact Shadows.fail _
    · exact Shadows.pure _

theorem prepare_shadows (cursor : Nat) :
    Shadows (prepare (remote.disturbed schedule) cursor) (prepare remote cursor) := by
  have rest : ∀ discovery : Rom.Discovery,
      Shadows (do
          let _ ← Engine.ofExcept discovery.ensureAgent
          let controlBlock ← Rom.controlBlockAddress (remote.disturbed schedule)
          Engine.note .info .session ("MBI: " ++ Numeral.hex controlBlock)
          Loader.begin (remote.disturbed schedule) controlBlock cursor)
        (do
          let _ ← Engine.ofExcept discovery.ensureAgent
          let controlBlock ← Rom.controlBlockAddress remote
          Engine.note .info .session ("MBI: " ++ Numeral.hex controlBlock)
          Loader.begin remote controlBlock cursor) := by
    intro discovery
    apply (Shadows.of_except _).bind
    intro agent
    apply (Shadows.control_block_address schedule).bind
    intro controlBlock
    apply (Shadows.note _ _ _).bind
    intro noted
    exact begin_shadows schedule controlBlock cursor
  simp only [prepare, Rom.discover, bind_assoc]
  apply (Shadows.read_identity schedule).attempt_bind
  · intro attempted
    cases attempted with
    | ok discovery => exact rest discovery
    | error fault =>
        simp only [bind_assoc, pure_bind]
        apply (Shadows.note _ _ _).bind
        intro noted
        exact rest ⟨0, 0⟩
  · -- A probe that failed is taken for a node without an agent, which is refused.
    intro fault
    simp only [bind_assoc, pure_bind]
    exact refuses_note_bind (refuses_fail _) _ _ _

theorem finish_disturbed (loader : Loader) (node : Node) (state : τ) :
    Agrees (finish (remote.disturbed schedule) loader) (finish remote loader) node state ∨
      Halts (finish (remote.disturbed schedule) loader) node state := by
  rcases Loader.signal_disturbed schedule loader node state with agrees | halts
  · exact Or.inl (agrees.bind fun _ _ => ⟨rfl, rfl⟩)
  · exact Or.inr (halts.bind _)

variable (source : FileSource)

theorem place_shadows (loader : Loader) (entry : Manifest.Entry) :
    Shadows (place (remote.disturbed schedule) (fun _ => source) loader entry)
      (place remote (fun _ => source) loader entry) := by
  cases entry with
  | address address =>
      apply (Shadows.of_except _).bind
      intro opened
      apply (Shadows.note _ _ _).bind
      intro noted
      exact Shadows.pure _
  | load file commandLine =>
      simp only [place, Engine.look_bind_const]
      cases source.read file with
      | error failure => exact Shadows.fail _
      | ok payload =>
          apply (Loader.push_shadows schedule loader payload commandLine).bind
          intro pushed
          exact Shadows.pure _

theorem place_all_shadows (loader : Loader) (entries : List Manifest.Entry) :
    Shadows (placeAll (remote.disturbed schedule) (fun _ => source) loader entries)
      (placeAll remote (fun _ => source) loader entries) := by
  induction entries generalizing loader with
  | nil => exact Shadows.pure loader
  | cons entry entries ih =>
      apply (place_shadows schedule source loader entry).bind
      intro placed
      exact ih placed

variable (manifest root : Path) (cursor : Nat)

theorem load_shadows :
    Shadows (load (remote.disturbed schedule) source manifest root cursor)
      (load remote source manifest root cursor) := by
  apply (prepare_shadows schedule cursor).bind
  intro loader
  apply (Shadows.of_noted _).bind
  intro entries
  apply (Shadows.note _ _ _).bind
  intro noted
  exact place_all_shadows schedule source loader entries

theorem ready_shadows :
    Shadows (ready (remote.disturbed schedule) source manifest root cursor)
      (ready remote source manifest root cursor) := by
  apply (load_shadows schedule source manifest root cursor).bind
  intro loader
  apply (Loader.publish_shadows schedule loader).bind
  intro published
  exact Shadows.pure loader

/-- A session succeeds as on the calm node, or it stops with a part of what the calm session writes
in front of the go signal. -/
theorem run_disturbed (node : Node) (state : τ) :
    (Agrees (run (remote.disturbed schedule) source manifest root cursor)
        (run remote source manifest root cursor) node state ∧
      ∃ report, (run remote source manifest root cursor node).result = .ok report) ∨
    (∃ stop, (run (remote.disturbed schedule) source manifest root cursor (node, state)).result =
        .error stop) ∧
      (∃ issued, node.Took issued
        (run (remote.disturbed schedule) source manifest root cursor (node, state)).node.1) ∧
      (run (remote.disturbed schedule) source manifest root cursor (node, state)).node.1.writes <+:
        (ready remote source manifest root cursor node).node.writes := by
  rw [run_eq_ready_finish, run_eq_ready_finish]
  rcases (ready_shadows schedule source manifest root cursor).follows node state with
    agrees | broken
  · rcases ready_cases node source manifest root cursor with
      ⟨after, block, readied⟩ | ⟨issued, block, front, stopped⟩
    · have returned := readied.readies.result
      rcases finish_disturbed schedule after (ready remote source manifest root cursor node).node
        (ready (remote.disturbed schedule) source manifest root cursor (node, state)).node.2 with
        same | halts
      · refine Or.inl ⟨agrees.bind fun loader reached => ?_, ⟨after.controlBlock, after.modules⟩, ?_⟩
        · rw [returned] at reached
          cases reached
          exact same
        · rw [← run_eq_ready_finish]
          exact (run_returns node source manifest root cursor readied).result
      · -- The go signal was lost, so the node stays where the calm session comes to it.
        have left := Engine.bind_of_ok (finish (remote.disturbed schedule))
          (agrees.result.trans returned)
        have arrived :
            (ready (remote.disturbed schedule) source manifest root cursor (node, state)).node =
              ((ready remote source manifest root cursor node).node,
                (ready (remote.disturbed schedule) source manifest root cursor
                  (node, state)).node.2) := Prod.ext agrees.node rfl
        rw [arrived] at left
        rw [left.1, left.2, halts.node]
        exact Or.inr ⟨halts.result, ⟨_, readied.readies.took⟩, List.prefix_refl _⟩
    · obtain ⟨stop, failed⟩ := stopped.result
      have left := Engine.bind_of_error (finish (remote.disturbed schedule))
        (agrees.result.trans failed)
      rw [left.1, left.2, agrees.node]
      exact Or.inr ⟨⟨stop, rfl⟩, ⟨issued, stopped.took⟩, List.prefix_refl _⟩
  · obtain ⟨stop, failed⟩ := broken.result
    have left := Engine.bind_of_error (finish (remote.disturbed schedule)) failed
    rw [left.1, left.2]
    exact Or.inr ⟨⟨stop, rfl⟩, broken.took, broken.behind⟩

end RemoteBoot.Boot
