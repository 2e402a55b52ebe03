import RemoteBoot.Multiboot.ControlBlock
import RemoteBoot.Node.Basic
import RemoteBoot.Proofs.Remote.Actions
import RemoteBoot.Remote.Disturbed

/-!
# Which faults stop an action

A sequence of actions stops with a fault of one of them.  Transfers are meant to fail with transport
faults and no others.  The node in memory keeps to this, also behind a schedule of transport faults.
-/

set_option autoImplicit false

namespace RemoteBoot

open Multiboot

variable {σ τ α β : Type}

/-- Every fault that stops the action is an allowed one; a crash is no fault. -/
structure Blames (allowed : Fault → Prop) (action : Engine σ α) : Prop where
  own : ∀ node fault, (action node).result = .error (.fault fault) → allowed fault

namespace Blames

variable {allowed : Fault → Prop}

theorem pure (value : α) : Blames allowed (pure value : Engine σ α) := by
  constructor
  intro node fault stopped
  cases stopped

theorem note (level : Level) (origin : Origin) (text : String) :
    Blames allowed (Engine.note level origin text : Engine σ Unit) := by
  constructor
  intro node fault stopped
  cases stopped

theorem crash (crash : Crash) : Blames allowed (Engine.crash crash : Engine σ α) := by
  constructor
  intro node fault stopped
  cases stopped

theorem fail {fault : Fault} (own : allowed fault) :
    Blames allowed (Engine.fail fault : Engine σ α) := by
  constructor
  intro node other stopped
  cases stopped
  exact own

theorem bind {first : Engine σ α} {next : α → Engine σ β} (begins : Blames allowed first)
    (rest : ∀ value, Blames allowed (next value)) : Blames allowed (first >>= next) := by
  constructor
  intro node fault stopped
  cases reached : (first node).result with
  | ok value =>
      rw [(Engine.bind_of_ok next reached).1] at stopped
      exact (rest value).own _ fault stopped
  | error stop =>
      rw [(Engine.bind_of_error next reached).1] at stopped
      cases stopped
      exact begins.own node fault reached

/-- What stops an action stops also the sequence that it begins. -/
theorem of_bind {first : Engine σ α} {next : α → Engine σ β}
    (blames : Blames allowed (first >>= next)) : Blames allowed first := by
  constructor
  intro node fault stopped
  exact blames.own node fault (Engine.bind_of_error next stopped).1

end Blames

/-- A fault of a transfer. -/
def Fault.InTransport (fault : Fault) : Prop :=
  fault.isRetryable = true

theorem in_transport (command diagnostic : String) :
    (Fault.transport command diagnostic).InTransport := rfl

/-- Transfers that fail report a transport fault. -/
structure Remote.FailsInTransport (remote : Remote σ) : Prop where
  read : ∀ address length node fault,
    (remote.read address length node).result = .error (.fault fault) → fault.InTransport
  write : ∀ address bytes node fault,
    (remote.write address bytes node).result = .error (.fault fault) → fault.InTransport

namespace Remote.FailsInTransport

variable {remote : Remote σ} (plain : remote.FailsInTransport)

include plain

theorem fetch (address length : Nat) :
    Blames Fault.InTransport (remote.fetch address length) :=
  ⟨plain.read address length⟩

theorem store (address : Nat) (bytes : Bytes) :
    Blames Fault.InTransport (remote.store address bytes) :=
  ⟨plain.write address bytes⟩

theorem store_word (address : Nat) (word : UInt32) :
    Blames Fault.InTransport (remote.storeWord address word) := by
  unfold Remote.storeWord
  split
  · exact Blames.crash _
  · exact plain.store address _

theorem fetch_control_block (address : Nat) :
    Blames Fault.InTransport (ControlBlock.fetch remote address) := by
  apply (plain.fetch _ _).bind
  intro bytes
  cases ControlBlock.ofBytes? bytes with
  | none => exact Blames.fail (in_transport _ _)
  | some block => exact Blames.pure block

end Remote.FailsInTransport

theorem node_fails_in_transport : Node.remote.FailsInTransport := by
  constructor
  · intro address length node fault failed
    simp only [Node.remote, Node.read] at failed
    split at failed
    · cases failed
      exact in_transport _ _
    · cases failed
  · intro address bytes node fault failed
    simp only [Node.remote, Node.write] at failed
    split at failed
    · cases failed
      exact in_transport _ _
    · cases failed

/-- The faults that a schedule puts in front of a node are transport faults. -/
structure Schedule.FailsInTransport (schedule : Schedule τ) : Prop where
  onRead : ∀ address length state fault,
    (schedule.onRead address length state).1 = .fail fault → fault.InTransport
  onWrite : ∀ address bytes state fault,
    (schedule.onWrite address bytes state).1 = .fail fault → fault.InTransport

theorem disturbed_fails_in_transport {remote : Remote σ} (plain : remote.FailsInTransport)
    {schedule : Schedule τ} (faults : schedule.FailsInTransport) :
    (remote.disturbed schedule).FailsInTransport := by
  constructor
  · rintro address length ⟨node, state⟩ fault failed
    have own := faults.onRead address length state
    rcases decided : schedule.onRead address length state with ⟨verdict, later⟩
    simp only [Remote.disturbed, decided] at failed own
    cases verdict with
    | pass => exact plain.read address length node fault failed
    | fail injected =>
        cases failed
        exact own fault rfl
    | cut limit =>
        cases calm : (remote.read address length node).result with
        | ok bytes =>
            simp only [calm, Except.map] at failed
            cases failed
        | error other =>
            simp only [calm, Except.map] at failed
            cases failed
            exact plain.read address length node fault calm
  · rintro address bytes ⟨node, state⟩ fault failed
    have own := faults.onWrite address bytes state
    rcases decided : schedule.onWrite address bytes state with ⟨verdict, later⟩
    simp only [Remote.disturbed, decided] at failed own
    cases verdict with
    | pass => exact plain.write address bytes node fault failed
    | fail injected =>
        cases failed
        exact own fault rfl

theorem fault_plan_fails_in_transport : FaultPlan.schedule.FailsInTransport := by
  constructor
  · intro address length plan fault decided
    simp only [FaultPlan.schedule, FaultPlan.onRead] at decided
    split at decided
    · cases decided
      exact in_transport _ _
    · split at decided
      · cases decided
        exact in_transport _ _
      · split at decided <;> cases decided
  · intro address bytes plan fault decided
    simp only [FaultPlan.schedule, FaultPlan.onWrite] at decided
    split at decided
    · cases decided
      exact in_transport _ _
    · cases decided

end RemoteBoot
