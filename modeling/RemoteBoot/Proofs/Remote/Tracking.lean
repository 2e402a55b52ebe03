import RemoteBoot.Proofs.Remote.Faults
import RemoteBoot.Rom.Discovery

/-!
# Actions that track each other

Two actions track each other along a relation between their nodes if from related nodes they give
one result and leave related nodes.  An action built from reads tracks itself on another remote as
soon as the reads do.  Two relations matter: the one to a remote whose writes are recorded, and the
one of a node to itself while a property of it is kept.
-/

set_option autoImplicit false

namespace RemoteBoot

open Multiboot

variable {σ ρ α β : Type}

structure Tracks (related : σ → ρ → Prop) (action : Engine σ α) (other : Engine ρ α) : Prop where
  result : ∀ {node place}, related node place → (action node).result = (other place).result
  node : ∀ {node place}, related node place → related (action node).node (other place).node

namespace Tracks

variable {related : σ → ρ → Prop}

/-- Actions that leave their nodes alone need only give one result. -/
theorem of_still {action : Engine σ α} {other : Engine ρ α} (result : Except Stop α)
    (left : ∀ node, (action node).result = result ∧ (action node).node = node)
    (right : ∀ place, (other place).result = result ∧ (other place).node = place) :
    Tracks related action other := by
  constructor
  · intro node place _
    rw [(left node).1, (right place).1]
  · intro node place near
    rw [(left node).2, (right place).2]
    exact near

theorem pure (value : α) : Tracks related (pure value) (pure value) :=
  of_still (.ok value) (fun _ => ⟨rfl, rfl⟩) fun _ => ⟨rfl, rfl⟩

theorem fail (fault : Fault) :
    Tracks related (Engine.fail fault : Engine σ α) (Engine.fail fault) :=
  of_still (.error (.fault fault)) (fun _ => ⟨rfl, rfl⟩) fun _ => ⟨rfl, rfl⟩

theorem crash (crash : Crash) :
    Tracks related (Engine.crash crash : Engine σ α) (Engine.crash crash) :=
  of_still (.error (.crash crash)) (fun _ => ⟨rfl, rfl⟩) fun _ => ⟨rfl, rfl⟩

theorem note (level : Level) (origin : Origin) (text : String) :
    Tracks related (Engine.note level origin text) (Engine.note level origin text) :=
  of_still (.ok ()) (fun _ => ⟨rfl, rfl⟩) fun _ => ⟨rfl, rfl⟩

theorem of_noted (computation : Noted α) :
    Tracks related (Engine.ofNoted computation) (Engine.ofNoted computation) :=
  of_still computation.result (fun _ => ⟨rfl, rfl⟩) fun _ => ⟨rfl, rfl⟩

theorem of_checked (result : Except Stop α) :
    Tracks related (Engine.ofChecked result) (Engine.ofChecked result) :=
  of_still result (fun _ => ⟨rfl, rfl⟩) fun _ => ⟨rfl, rfl⟩

theorem of_except (result : Except Fault α) :
    Tracks related (Engine.ofExcept result) (Engine.ofExcept result) := by
  cases result with
  | ok value => exact pure value
  | error fault => exact fail fault

theorem bind {first : Engine σ α} {other : Engine ρ α} {next : α → Engine σ β}
    {further : α → Engine ρ β} (begins : Tracks related first other)
    (rest : ∀ value, Tracks related (next value) (further value)) :
    Tracks related (first >>= next) (other >>= further) := by
  have both : ∀ {node place}, related node place →
      ((first >>= next) node).result = ((other >>= further) place).result ∧
        related ((first >>= next) node).node ((other >>= further) place).node := by
    intro node place near
    have same := begins.result near
    cases reached : (other place).result with
    | ok value =>
        have left := Engine.bind_of_ok next (same.trans reached)
        have right := Engine.bind_of_ok further reached
        rw [left.1, left.2, right.1, right.2]
        exact ⟨(rest value).result (begins.node near), (rest value).node (begins.node near)⟩
    | error stop =>
        have left := Engine.bind_of_error next (same.trans reached)
        have right := Engine.bind_of_error further reached
        rw [left.1, left.2, right.1, right.2]
        exact ⟨rfl, begins.node near⟩
  exact ⟨fun near => (both near).1, fun near => (both near).2⟩

theorem attempt {action : Engine σ α} {other : Engine ρ α} (tracks : Tracks related action other) :
    Tracks related (Engine.attempt action) (Engine.attempt other) := by
  constructor
  · intro node place near
    rw [Engine.result_attempt, Engine.result_attempt, tracks.result near]
  · intro node place near
    rw [Engine.node_attempt, Engine.node_attempt]
    exact tracks.node near

theorem of_transfer {transfer : σ → Transfer σ α} {other : ρ → Transfer ρ α}
    (alike : ∀ {node place}, related node place →
      (transfer node).result = (other place).result ∧
        related (transfer node).node (other place).node) :
    Tracks related (Transfer.toEngine transfer) (Transfer.toEngine other) :=
  ⟨fun near => (alike near).1, fun near => (alike near).2⟩

end Tracks

/-- Reads on two remotes give the same and leave related nodes. -/
def ReadsTrack (related : σ → ρ → Prop) (remote : Remote σ) (other : Remote ρ) : Prop :=
  ∀ address length, Tracks related (remote.fetch address length) (other.fetch address length)

def WritesTrack (related : σ → ρ → Prop) (remote : Remote σ) (other : Remote ρ) : Prop :=
  ∀ address bytes, Tracks related (remote.store address bytes) (other.store address bytes)

section Reads

variable {related : σ → ρ → Prop} {remote : Remote σ} {other : Remote ρ}

theorem WritesTrack.store_word (writes : WritesTrack related remote other) (address : Nat)
    (word : UInt32) : Tracks related (remote.storeWord address word) (other.storeWord address word) := by
  unfold Remote.storeWord
  split
  · exact Tracks.crash _
  · exact writes address _

namespace ReadsTrack

variable (reads : ReadsTrack related remote other)

include reads

theorem read_quadlet (index : Nat) :
    Tracks related (Rom.readQuadlet remote index) (Rom.readQuadlet other index) := by
  apply (reads _ _).bind
  intro bytes
  split
  · exact Tracks.pure _
  · exact Tracks.fail _

theorem read_identity : Tracks related (Rom.readIdentity remote) (Rom.readIdentity other) := by
  apply (reads.read_quadlet _).bind
  intro vendor
  apply (reads.read_quadlet _).bind
  intro model
  exact Tracks.pure _

theorem discover : Tracks related (Rom.discover remote) (Rom.discover other) := by
  apply reads.read_identity.attempt.bind
  intro attempted
  cases attempted with
  | ok discovery => exact Tracks.pure discovery
  | error fault =>
      apply (Tracks.note _ _ _).bind
      intro noted
      exact Tracks.pure _

theorem control_block_address :
    Tracks related (Rom.controlBlockAddress remote) (Rom.controlBlockAddress other) := by
  apply (reads.read_quadlet _).bind
  intro quadlet
  exact Tracks.pure _

theorem fetch_control_block (address : Nat) :
    Tracks related (ControlBlock.fetch remote address) (ControlBlock.fetch other address) := by
  apply (reads _ _).bind
  intro bytes
  cases ControlBlock.ofBytes? bytes with
  | none => exact Tracks.fail _
  | some block => exact Tracks.pure block

end ReadsTrack
end Reads

/-- The remote that also keeps a list of all writes that were issued, also of those that fail. -/
def Remote.recorded (remote : Remote σ) : Remote (σ × List Write) where
  read address length := fun (node, issued) =>
    let left := remote.read address length node
    ⟨left.result, (left.node, issued), left.notes⟩
  write address bytes := fun (node, issued) =>
    let left := remote.write address bytes node
    ⟨left.result, (left.node, issued ++ [⟨address, bytes⟩]), left.notes⟩

/-- The node of a recorded remote is the node of the remote. -/
def Records (recorded : σ × List Write) (node : σ) : Prop :=
  recorded.1 = node

theorem records_at (node : σ) (issued : List Write) : Records (node, issued) node := rfl

theorem recorded_reads (remote : Remote σ) : ReadsTrack Records remote.recorded remote := by
  intro address length
  apply Tracks.of_transfer
  rintro ⟨node, issued⟩ place rfl
  exact ⟨rfl, rfl⟩

theorem recorded_writes (remote : Remote σ) : WritesTrack Records remote.recorded remote := by
  intro address bytes
  apply Tracks.of_transfer
  rintro ⟨node, issued⟩ place rfl
  exact ⟨rfl, rfl⟩

/-- No write was issued. -/
def Silent (recorded : σ × List Write) : Prop :=
  recorded.2 = []

theorem silent_begin (node : σ) : Silent (node, []) := rfl

theorem recorded_reads_are_silent (remote : Remote σ) (address length : Nat)
    (recorded : σ × List Write) (silent : Silent recorded) :
    Silent (remote.recorded.fetch address length recorded).node := by
  exact silent

theorem recorded_fails_in_transport {remote : Remote σ} (plain : remote.FailsInTransport) :
    remote.recorded.FailsInTransport := by
  constructor
  · intro address length recorded fault failed
    exact plain.read address length recorded.1 fault failed
  · intro address bytes recorded fault failed
    exact plain.write address bytes recorded.1 fault failed

/-- Nothing but a property of the node matters: the node is its own partner while it has it. -/
def Keeping (property : σ → Prop) (node place : σ) : Prop :=
  node = place ∧ property node

theorem reads_keeping {property : σ → Prop} {remote : Remote σ}
    (kept : ∀ address length node, property node →
      property (remote.fetch address length node).node) :
    ReadsTrack (Keeping property) remote remote := by
  intro address length
  constructor
  · rintro node place ⟨rfl, _⟩
    rfl
  · rintro node place ⟨rfl, holds⟩
    exact ⟨rfl, kept address length node holds⟩

theorem Tracks.keeps {property : σ → Prop} {action : Engine σ α}
    (tracks : Tracks (Keeping property) action action) {node : σ} (holds : property node) :
    property (action node).node :=
  (tracks.node ⟨rfl, holds⟩).2

end RemoteBoot
