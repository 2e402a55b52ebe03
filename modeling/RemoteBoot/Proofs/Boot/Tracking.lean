import RemoteBoot.Proofs.Boot.Stages
import RemoteBoot.Proofs.Remote.Tracking

/-!
# Sessions that track each other

A session tracks itself on another remote as soon as the transfers do; what comes in front of the
first write tracks itself as soon as the reads do.
-/

set_option autoImplicit false

namespace RemoteBoot.Boot

open Multiboot

variable {σ ρ : Type} {related : σ → ρ → Prop} {remote : Remote σ} {other : Remote ρ}

section Reads

variable (reads : ReadsTrack related remote other)

include reads

theorem begin_tracks (controlBlock cursor : Nat) :
    Tracks related (Loader.begin remote controlBlock cursor)
      (Loader.begin other controlBlock cursor) := by
  unfold Loader.begin
  split
  · exact Tracks.fail _
  · apply (reads.fetch_control_block controlBlock).bind
    intro block
    split
    · exact Tracks.fail _
    · exact Tracks.pure _

theorem prepare_tracks (cursor : Nat) :
    Tracks related (prepare remote cursor) (prepare other cursor) := by
  apply reads.discover.bind
  intro discovery
  apply (Tracks.of_except _).bind
  intro agent
  apply reads.control_block_address.bind
  intro controlBlock
  apply (Tracks.note _ _ _).bind
  intro noted
  exact begin_tracks reads controlBlock cursor

end Reads

section Writes

variable (writes : WritesTrack related remote other)

include writes

theorem push_tracks (loader : Loader) (payload : Bytes) (commandLine : Text) :
    Tracks related (loader.push remote payload commandLine)
      (loader.push other payload commandLine) := by
  apply (Tracks.of_except _).bind
  intro opened
  apply (Tracks.of_except _).bind
  intro start
  apply (Tracks.of_checked _).bind
  intro stop
  apply (Tracks.of_except _).bind
  intro fits
  apply (writes _ _).bind
  intro stored
  apply (Tracks.note _ _ _).bind
  intro noted
  apply (Tracks.of_checked _).bind
  intro cursor
  exact Tracks.pure _

theorem signal_tracks (loader : Loader) :
    Tracks related (loader.signal remote) (loader.signal other) := by
  apply (Tracks.note _ _ _).bind
  intro announced
  apply (writes.store_word _ _).bind
  intro counted
  split
  · apply (Tracks.note _ _ _).bind
    intro warned
    exact Tracks.pure _
  · exact (Tracks.pure _).bind fun _ => Tracks.pure _

variable (source : FileSource)

theorem place_tracks (loader : Loader) (entry : Manifest.Entry) :
    Tracks related (place remote (fun _ => source) loader entry)
      (place other (fun _ => source) loader entry) := by
  cases entry with
  | address address =>
      apply (Tracks.of_except _).bind
      intro opened
      apply (Tracks.note _ _ _).bind
      intro noted
      exact Tracks.pure _
  | load file commandLine =>
      simp only [place, Engine.look_bind_const]
      cases source.read file with
      | error failure => exact Tracks.fail _
      | ok payload =>
          apply (push_tracks writes loader payload commandLine).bind
          intro pushed
          exact Tracks.pure _

theorem place_all_tracks (loader : Loader) (entries : List Manifest.Entry) :
    Tracks related (placeAll remote (fun _ => source) loader entries)
      (placeAll other (fun _ => source) loader entries) := by
  induction entries generalizing loader with
  | nil => exact Tracks.pure loader
  | cons entry entries ih =>
      apply (place_tracks writes source loader entry).bind
      intro placed
      exact ih placed

end Writes

section Both

variable (reads : ReadsTrack related remote other) (writes : WritesTrack related remote other)

include reads writes

theorem arm_tracks (loader : Loader) : Tracks related (loader.arm remote) (loader.arm other) := by
  rw [Loader.arm_eq_publish_signal, Loader.arm_eq_publish_signal]
  refine Tracks.bind ?_ fun _ => signal_tracks writes loader
  unfold Loader.publish
  cases loader.phase with
  | armed => exact Tracks.fail _
  | idle => exact Tracks.fail _
  | pushing =>
      apply (Tracks.of_checked _).bind
      intro base
      apply (Tracks.of_checked _).bind
      intro block
      apply (Tracks.note _ _ _).bind
      intro noted
      apply (writes _ _).bind
      intro stored
      apply (reads.fetch_control_block _).bind
      intro control
      apply (writes.store_word _ _).bind
      intro flagged
      apply (Tracks.of_except _).bind
      intro address
      exact writes.store_word _ _

theorem run_tracks (source : FileSource) (manifest root : Path) (cursor : Nat) :
    Tracks related (run remote source manifest root cursor)
      (run other source manifest root cursor) := by
  rw [run_eq_load_arm, run_eq_load_arm]
  refine Tracks.bind ?_ fun loader => (arm_tracks reads writes loader).bind fun _ => Tracks.pure _
  apply (prepare_tracks reads cursor).bind
  intro loader
  apply (Tracks.of_noted _).bind
  intro entries
  apply (Tracks.note _ _ _).bind
  intro noted
  exact place_all_tracks writes source loader entries

end Both

/-- What a session does is not changed by recording its writes. -/
theorem run_recorded (remote : Remote σ) (source : FileSource) (manifest root : Path)
    (cursor : Nat) (node : σ) (issued : List Write) :
    (run remote.recorded source manifest root cursor (node, issued)).result =
        (run remote source manifest root cursor node).result ∧
      (run remote.recorded source manifest root cursor (node, issued)).node.1 =
        (run remote source manifest root cursor node).node := by
  have tracks := run_tracks (recorded_reads remote) (recorded_writes remote) source manifest root
    cursor
  exact ⟨tracks.result (records_at node issued), tracks.node (records_at node issued)⟩

end RemoteBoot.Boot
