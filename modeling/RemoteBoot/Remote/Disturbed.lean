import RemoteBoot.Remote.Engine

/-!
# Disturbed access

Faults in front of a node.  A schedule has a state of its own and decides for each transfer whether
it passes, fails without reaching the node, or comes back cut short.  `FaultPlan` is the schedule
that fails a number of first reads, fails transfers at listed addresses and cuts reads at listed
addresses.
-/

set_option autoImplicit false

namespace RemoteBoot

inductive ReadVerdict where
  | pass
  | fail (fault : Fault)
  /-- At most this many bytes arrive. -/
  | cut (length : Nat)

inductive WriteVerdict where
  | pass
  | fail (fault : Fault)

structure Schedule (τ : Type) where
  onRead : Nat → Nat → τ → ReadVerdict × τ
  onWrite : Nat → Bytes → τ → WriteVerdict × τ

/-- A node with a schedule of faults in front of it. -/
def Remote.disturbed {σ τ : Type} (remote : Remote σ) (schedule : Schedule τ) :
    Remote (σ × τ) where
  read address length := fun (node, state) =>
    match schedule.onRead address length state with
    | (.pass, state) =>
      let left := remote.read address length node
      ⟨left.result, (left.node, state), left.notes⟩
    | (.fail fault, state) => ⟨.error (.fault fault), (node, state), []⟩
    | (.cut limit, state) =>
      let left := remote.read address length node
      ⟨left.result.map (·.take limit), (left.node, state), left.notes⟩
  write address bytes := fun (node, state) =>
    match schedule.onWrite address bytes state with
    | (.pass, state) =>
      let left := remote.write address bytes node
      ⟨left.result, (left.node, state), left.notes⟩
    | (.fail fault, state) => ⟨.error (.fault fault), (node, state), []⟩

structure FaultPlan where
  /-- How many further reads fail, wherever they go. -/
  failingReads : Nat := 0
  readFaults : List Nat := []
  writeFaults : List Nat := []
  shortReads : List (Nat × Nat) := []

namespace FaultPlan

def injected (operation : String) (address : Nat) : Fault :=
  .transport ("faulty " ++ operation ++ " " ++ Numeral.hex address) "injected fault"

def onRead (address _length : Nat) (plan : FaultPlan) : ReadVerdict × FaultPlan :=
  match plan.failingReads with
  | left + 1 => (.fail (.transport "probe" "no node"), { plan with failingReads := left })
  | 0 =>
    if address ∈ plan.readFaults then (.fail (injected "read" address), plan)
    else
      match plan.shortReads.lookup address with
      | some limit => (.cut limit, plan)
      | none => (.pass, plan)

def onWrite (address : Nat) (_bytes : Bytes) (plan : FaultPlan) : WriteVerdict × FaultPlan :=
  if address ∈ plan.writeFaults then (.fail (injected "write" address), plan) else (.pass, plan)

def schedule : Schedule FaultPlan where
  onRead := onRead
  onWrite := onWrite

end FaultPlan
end RemoteBoot
