import Mathlib.Data.List.Forall2
import RemoteBoot.Proofs.Multiboot.Requests

/-!
# The history of a loader

A loader accounts for the requests that were made of it: it lists the pushes that succeeded, in
their order, and it is armed exactly if an arming succeeded.  No request gets anything out of an
armed loader.  Between two requests the node may change in any way, or be another one.
-/

set_option autoImplicit false

namespace RemoteBoot.Multiboot

open Held

/-- A request with what came of it. -/
structure Event where
  request : Request
  result : Except Stop Reply

namespace Event

/-- A push that succeeded. -/
def pushes : Event → Bool
  | ⟨.push _ _, .ok _⟩ => true
  | _ => false

/-- An arming that succeeded. -/
def arms : Event → Bool
  | ⟨.arm, .ok _⟩ => true
  | _ => false

theorem pushes_stopped (request : Request) (stop : Stop) :
    pushes ⟨request, .error stop⟩ = false := by
  cases request <;> rfl

theorem arms_stopped (request : Request) (stop : Stop) :
    arms ⟨request, .error stop⟩ = false := by
  cases request <;> rfl

theorem pushes_append (events : List Event) (event : Event) :
    (events ++ [event]).filter pushes =
      events.filter pushes ++ if event.pushes = true then [event] else [] := by
  rw [List.filter_append, List.filter_singleton, Bool.cond_eq_ite]

theorem arms_append (events : List Event) (event : Event) :
    (∃ other ∈ events ++ [event], other.arms = true) ↔
      (∃ other ∈ events, other.arms = true) ∨ event.arms = true := by
  simp only [List.mem_append, List.mem_singleton, or_and_right, exists_or, exists_eq_left]

end Event

/-- The event is a push that put the module into memory: the module is as long as the payload and has
the command line that was given. -/
inductive Brings : Event → Module → Prop where
  | push (payload : Bytes) (module : Module) (length : module.stop = module.start + payload.length) :
      Brings ⟨.push payload module.commandLine, .ok (.pushed module)⟩ module

/-- What becomes of a loader through any requests, each made on any node. -/
inductive Reached (begun : Loader) : List Event → Loader → Prop where
  | begun : Reached begun [] begun
  | request {events : List Event} {loader : Loader} (reached : Reached begun events loader)
      {σ : Type} (remote : Remote σ) (node : σ) (request : Request) :
      Reached begun
        (events ++ [⟨request, (perform remote request ⟨node, loader⟩).result⟩])
        (perform remote request ⟨node, loader⟩).node.loader

/-- The loader fits the events so far. -/
structure Accounts (controlBlock : Nat) (events : List Event) (loader : Loader) : Prop where
  idle_iff : loader.phase = .idle ↔ loader.modules = []
  modules : List.Forall₂ Brings (events.filter Event.pushes) loader.modules
  armed_iff : loader.phase = .armed ↔ ∃ event ∈ events, event.arms = true
  controlBlock : loader.controlBlock = controlBlock

namespace Accounts

variable {controlBlock : Nat} {events : List Event} {loader after : Loader}

theorem begun (controlBlock cursor : Nat) :
    Accounts controlBlock [] ⟨controlBlock, .idle, cursor, []⟩ := by
  refine ⟨by simp, .nil, ?_, rfl⟩
  simp only [List.not_mem_nil, false_and, exists_false, reduceCtorEq]

/-- Nothing in the account changes with a request that stops. -/
theorem stopped (accounts : Accounts controlBlock events loader) (request : Request) (stop : Stop) :
    Accounts controlBlock (events ++ [⟨request, .error stop⟩]) loader := by
  refine ⟨accounts.idle_iff, ?_, ?_, accounts.controlBlock⟩
  · rw [Event.pushes_append, Event.pushes_stopped]
    simpa using accounts.modules
  · rw [Event.arms_append, Event.arms_stopped, accounts.armed_iff]
    simp only [Bool.false_eq_true, or_false]

theorem moved (accounts : Accounts controlBlock events loader) {request : Request} {reply : Reply}
    (moves : Moves loader request reply after) :
    Accounts controlBlock (events ++ [⟨request, .ok reply⟩]) after := by
  cases moves with
  | setAddress unarmed address =>
      refine ⟨accounts.idle_iff, ?_, ?_, accounts.controlBlock⟩
      · rw [Event.pushes_append]
        simpa [Event.pushes] using accounts.modules
      · rw [Event.arms_append, ← accounts.armed_iff]
        simp [Event.arms]
  | push unarmed payload commandLine fits =>
      let module := loader.nextModule payload commandLine
      have brings : Brings ⟨.push payload commandLine, .ok (.pushed module)⟩ module :=
        .push payload module rfl
      refine ⟨by simp [Loader.taking, Loader.accept], ?_, ?_, accounts.controlBlock⟩
      · rw [Event.pushes_append]
        exact List.rel_append accounts.modules (.cons brings .nil)
      · rw [Event.arms_append, ← accounts.armed_iff]
        simp [Loader.taking, Loader.accept, Event.arms, unarmed]
  | arm pushing block made aligned =>
      -- A loader that is pushing is not idle, so it has modules.
      have some : loader.modules ≠ [] := by
        intro empty
        rw [accounts.idle_iff.mpr empty] at pushing
        cases pushing
      refine ⟨by simp [some], ?_, ?_, accounts.controlBlock⟩
      · rw [Event.pushes_append]
        simpa [Event.pushes] using accounts.modules
      · rw [Event.arms_append]
        simp [Event.arms]

theorem of_reached {begun : Loader} (accounts : Accounts controlBlock [] begun)
    (reached : Reached begun events loader) : Accounts controlBlock events loader := by
  induction reached with
  | begun => exact accounts
  | request reached remote node request ih =>
      rcases perform_cases remote _ node request with
        ⟨stop, result, kept⟩ | ⟨reply, result, moves⟩
      · rw [result, kept]
        exact ih.stopped request stop
      · rw [result]
        exact ih.moved moves

end Accounts

/-- Whatever was requested of a loader since it began, and on whatever nodes, it accounts for the
events, and once it is armed it refuses every request. -/
theorem reached_accounts {σ : Type} {remote : Remote σ} {controlBlock cursor : Nat} {node : σ}
    {begun after : Loader} {events : List Event}
    (started : (Loader.begin remote controlBlock cursor node).result = .ok begun)
    (reached : Reached begun events after) :
    Accounts controlBlock events after ∧
      (after.phase = .armed → ∀ request, Refused after request .alreadyArmed) := by
  constructor
  · rw [(begin_ok started).1] at reached
    exact (Accounts.begun controlBlock cursor).of_reached reached
  · intro armed request
    exact refused_of_armed armed request

/-- A node that waits for its modules, behind faults of the writes to some addresses. -/
def waitingNode (writeFaults : List Nat) : Node × FaultPlan :=
  (Node.withAgent 0x9f000, { writeFaults })

/-- A loader that is armed behind an arming without modules, a push, and an arming whose last write
was lost. -/
theorem armed_loader_accounts :
    ∃ events after, Reached ⟨0x9f000, .idle, 0x1000000, []⟩ events after ∧ events.length = 4 ∧
      after.phase = .armed ∧ Accounts 0x9f000 events after ∧
      ∀ request, Refused after request .alreadyArmed := by
  let remote := Node.remote.disturbed FaultPlan.schedule
  have started : (Loader.begin remote 0x9f000 0x1000000 (waitingNode [])).result =
      .ok ⟨0x9f000, .idle, 0x1000000, []⟩ := ok_of_to_option (by decide +kernel)
  have idle : Reached ⟨0x9f000, .idle, 0x1000000, []⟩ [] ⟨0x9f000, .idle, 0x1000000, []⟩ := .begun
  have empty := idle.request remote (waitingNode []) .arm
  have pushed := empty.request remote (waitingNode []) (.push [1, 2, 3] "k one".toList)
  have lost := pushed.request remote (waitingNode [0x9f014]) .arm
  have reached := lost.request remote (waitingNode []) .arm
  have accounts := reached_accounts started reached
  refine ⟨_, _, reached, rfl, ?_, accounts.1, accounts.2 ?_⟩ <;> decide +kernel

end RemoteBoot.Multiboot
