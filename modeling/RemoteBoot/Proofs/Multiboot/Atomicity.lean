import RemoteBoot.Proofs.Multiboot.Requests

/-!
# Requests that fail

A request that stops leaves the loader as it was.  Where transfers fail with transport faults only,
any other fault comes from the checks in front of the first transfer: what arming narrows behind its
first write was checked when the descriptor block was made.  The same holds of its sums: one that 64
bits cannot hold comes up when the block is made.
-/

set_option autoImplicit false

namespace RemoteBoot.Multiboot

open Held

/-- A fault of the checks: the loader is armed, or has no modules, or is given an address that 32
bits cannot hold. -/
inductive Fault.OfChecks : Fault → Prop where
  | alreadyArmed : OfChecks .alreadyArmed
  | noModules : OfChecks .noModules
  | addressOutOfRange (address : Nat) : OfChecks (.addressOutOfRange address)

theorem of_checks_of_grounds {loader : Loader} {request : Request} {fault : Fault}
    (grounds : Grounds loader request fault) : Fault.OfChecks fault := by
  cases grounds with
  | armed armed => exact .alreadyArmed
  | idle idle => exact .noModules
  | start unarmed payload commandLine large => exact .addressOutOfRange _
  | stop unarmed payload commandLine fits large formed => exact .addressOutOfRange _
  | block pushing address large => exact .addressOutOfRange address

section Failed

variable {σ : Type} {remote : Remote σ} {loader : Loader} {node : σ} {request : Request}
  {fault : Fault}

theorem fault_of_refused (refused : Refused loader request fault) {other : Fault}
    (failed : (perform remote request ⟨node, loader⟩).result = .error (.fault other)) :
    other = fault := by
  rw [refused remote node] at failed
  cases failed
  rfl

theorem in_transport_of_failed (transport : Blames Fault.InTransport (carryOut remote loader request))
    (failed : (perform remote request ⟨node, loader⟩).result = .error (.fault fault)) :
    fault.InTransport := by
  rw [result_perform] at failed
  cases ended : (carryOut remote loader request node).result with
  | ok value =>
      rw [ended] at failed
      cases failed
  | error stop =>
      rw [ended] at failed
      cases failed
      exact transport.own node fault ended

/-- Whatever is no fault of a transfer was found by the checks. -/
theorem grounds_of_failed (plain : remote.FailsInTransport) (other : ¬ fault.InTransport)
    (failed : (perform remote request ⟨node, loader⟩).result = .error (.fault fault)) :
    Grounds loader request fault := by
  rcases grounds_or_in_transport loader request with ⟨own, grounds⟩ | transport
  · rw [fault_of_refused (refused_of_grounds grounds) failed]
    exact grounds
  · exact absurd (in_transport_of_failed (transport plain) failed) other

end Failed

/-- A request that stops leaves the loader as it was, and makes no transfer at all if it fails other
than in transport.  Once there is a descriptor block, arming can only fail in transport: nothing that
it narrows is cut.  Where an address of the block cannot be formed, arming crashes with nothing
done. -/
theorem failed_request_is_atomic {σ : Type} (remote : Remote σ) (loader : Loader) (node : σ) :
    (∀ request stop, (perform remote request ⟨node, loader⟩).result = .error stop →
      (perform remote request ⟨node, loader⟩).node.loader = loader) ∧
    (∀ request fault,
      (perform remote request ⟨node, loader⟩).result = .error (.fault fault) →
        remote.FailsInTransport → ¬ fault.InTransport →
          Refused loader request fault ∧ Fault.OfChecks fault) ∧
    (∀ block, loader.phase = .pushing → loader.descriptorBlock = .ok block →
      narrow (loader.controlBlock + 0x4000) = .ok (UInt32.ofNat (loader.controlBlock + 0x4000)) ∧
      (UInt32.ofNat loader.modules.length).toNat = loader.modules.length ∧
      (remote.FailsInTransport → ∀ fault,
        (perform remote .arm ⟨node, loader⟩).result = .error (.fault fault) →
          fault.InTransport)) ∧
    ∀ crash, loader.phase = .pushing → loader.descriptorBlock = .error (.crash crash) →
      perform remote .arm ⟨node, loader⟩ = ⟨.error (.crash .sumOverflow), ⟨node, loader⟩, []⟩ := by
  refine ⟨fun request stop => loader_of_stopped remote loader node, ?_, ?_, ?_⟩
  · intro request fault failed plain other
    have grounds := grounds_of_failed plain other failed
    exact ⟨refused_of_grounds grounds, of_checks_of_grounds grounds⟩
  · intro block pushing made
    refine ⟨narrow_of_lt (Loader.descriptor_address_fits made),
      to_nat_of_fits (Loader.count_fits made), ?_⟩
    intro plain fault failed
    have transport : Blames Fault.InTransport (carryOut remote loader .arm) :=
      (arm_in_transport plain pushing made).bind fun _ => Blames.pure _
    exact in_transport_of_failed transport failed
  · intro crash pushing failed
    rw [perform_eq_settle, settle, carryOut, arm_of_overflow remote pushing failed]
    rfl

/-- A loader with one module and its cursor on the last address. -/
def loaderAtTop : Loader :=
  ⟨0x9f000, .pushing, 0xffffffff, [⟨0x1000000, 0x1000003, "k one".toList⟩]⟩

/-- A loader whose control block lies so high that its strings lie behind the last address. -/
def loaderAtEdge : Loader :=
  { loaderAtTop with controlBlock := 0xffffffffffffbff0 }

/-- A payload that ends behind the last address is refused, by a loader that could be armed; and a
control block that high is not armed and keeps its words. -/
theorem payload_at_top_is_refused :
    Refused loaderAtTop (.push [7] "m".toList) (.addressOutOfRange 0x100000000) ∧
      narrow (loaderAtTop.controlBlock + 0x4000) = .ok 0xa3000 ∧
      perform Node.remote .arm ⟨Node.withAgent 0x9f000, loaderAtEdge⟩ =
        ⟨.error (.crash .sumOverflow), ⟨Node.withAgent 0x9f000, loaderAtEdge⟩, []⟩ := by
  have atomic := failed_request_is_atomic Node.remote loaderAtTop (Node.withAgent 0x9f000)
  have edge := failed_request_is_atomic Node.remote loaderAtEdge (Node.withAgent 0x9f000)
  have failed : (perform Node.remote (.push [7] "m".toList)
      ⟨Node.withAgent 0x9f000, loaderAtTop⟩).result =
        .error (.fault (.addressOutOfRange 0x100000000)) := error_of_fault (by decide +kernel)
  have made : loaderAtTop.descriptorBlock =
      .ok (loaderAtTop.descriptorBlock.toOption.getD []) := ok_of_to_option (by decide +kernel)
  have overflow : loaderAtEdge.descriptorBlock = .error (.crash .sumOverflow) :=
    crash_eq_some_iff.mp (by decide +kernel)
  have other : ¬ (Fault.addressOutOfRange 0x100000000).InTransport := by
    intro retryable
    cases retryable
  exact ⟨(atomic.2.1 _ _ failed node_fails_in_transport other).1, (atomic.2.2.1 _ rfl made).1,
    edge.2.2.2 .sumOverflow rfl overflow⟩

end RemoteBoot.Multiboot
