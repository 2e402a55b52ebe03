import RemoteBoot.Proofs.Multiboot.Disturbance
import RemoteBoot.Proofs.Multiboot.InPlace

/-!
# Requests that are made again

Transport faults may clear up, so a request that one of them stopped is made again.  An arming that
was stopped left a part of what publishing writes; publishing again writes the same, because the
flag that it adds stays added.  So however often arming was stopped, an arming that goes through
leaves the node as if it had been the only one, and so does a push.
-/

set_option autoImplicit false

namespace RemoteBoot.Multiboot

open Node Held

/-- A request behind faults: how it ends, and what node and loader it leaves.  The node keeps what
reached it. -/
def attempt {τ : Type} (schedule : Schedule τ) (state : τ) (request : Request) (held : Held Node) :
    Except Stop Reply × Held Node :=
  let left := perform (remote.disturbed schedule) request ⟨(held.node, state), held.loader⟩
  (left.result, ⟨left.node.node.1, left.node.loader⟩)

/-- What any number of attempts leave, each of an allowed request, behind faults of its own, and
stopped. -/
inductive Tried (allowed : Request → Prop) (held : Held Node) : Held Node → Prop where
  | start : Tried allowed held held
  | again {middle : Held Node} (tried : Tried allowed held middle) {τ : Type}
      (schedule : Schedule τ) (state : τ) {request : Request} (permitted : allowed request)
      {stop : Stop} (stopped : (attempt schedule state request middle).1 = .error stop) :
      Tried allowed held (attempt schedule state request middle).2

theorem Tried.again_of_none {allowed : Request → Prop} {held middle : Held Node}
    (tried : Tried allowed held middle) (plan : FaultPlan) {request : Request}
    (permitted : allowed request)
    (nothing : (attempt FaultPlan.schedule plan request middle).1.toOption = none) :
    Tried allowed held (attempt FaultPlan.schedule plan request middle).2 := by
  obtain ⟨stop, stopped⟩ := error_of_to_option nothing
  exact tried.again _ _ permitted stopped

inductive IsPush : Request → Prop where
  | push (payload : Bytes) (commandLine : Text) : IsPush (.push payload commandLine)

namespace Loader

def arming (loader : Loader) (memory : Memory) (block : Bytes) : List Write :=
  loader.publication memory block ++ [loader.goSignal]

theorem or_mods_twice (flags : UInt32) : flags ||| Flag.mods ||| Flag.mods = flags ||| Flag.mods := by
  rw [UInt32.or_assoc, UInt32.or_self]

/-- Behind any part of publishing the flags are the old ones, or have the flag of the modules
already. -/
theorem flags_of_published (loader : Loader) (memory : Memory) (block : Bytes) {issued : List Write}
    (front : issued <+: loader.publication memory block) :
    (memory.replay issued).peekWord loader.controlBlock ||| Flag.mods =
      memory.peekWord loader.controlBlock ||| Flag.mods := by
  rw [publication_eq] at front
  obtain ⟨rest, split⟩ := front
  -- Publishing is three writes, and any number of them was issued; the second is the flags.
  match issued, split with
  | [], _ => rfl
  | [first], split =>
      cases split
      rw [Memory.replay_cons, Memory.replay_nil, flags_of_block]
  | [first, second], split =>
      cases split
      rw [Memory.replay_cons, Memory.replay_cons, Memory.replay_nil, Memory.peek_word_store_self,
        or_mods_twice]
  | [first, second, third], split =>
      cases split
      rw [Memory.replay_cons, Memory.replay_cons, Memory.replay_cons, Memory.replay_nil,
        Memory.peek_word_store_apart _ (Or.inl (Nat.add_le_add_left (by decide) _)),
        Memory.peek_word_store_self, or_mods_twice]
  | first :: second :: third :: fourth :: more, split => cases split

theorem arming_again (loader : Loader) (memory : Memory) (block : Bytes) {issued : List Write}
    (front : issued <+: loader.publication memory block) :
    loader.arming (memory.replay issued) block = loader.arming memory block := by
  rw [arming, arming, publication_eq, publication_eq,
    flags_of_published loader memory block front]

/-- Arming behind a part of publishing leaves memory as arming alone does. -/
theorem replay_arming_again (loader : Loader) (memory : Memory) (block : Bytes)
    {issued : List Write} (front : issued <+: loader.publication memory block) :
    (memory.replay issued).replay (loader.arming (memory.replay issued) block) =
      memory.replay (loader.arming memory block) := by
  rw [arming_again loader memory block front]
  apply memory.replay_again
  intro write member
  exact List.mem_append_left _ (front.mem member)

end Loader

section Attempt

variable {τ : Type} (schedule : Schedule τ) (state : τ) (held : Held Node)

theorem loader_of_attempt {request : Request} {stop : Stop}
    (stopped : (attempt schedule state request held).1 = .error stop) :
    (attempt schedule state request held).2.loader = held.loader :=
  loader_of_stopped _ _ _ stopped

theorem node_of_attempt (request : Request) :
    (attempt schedule state request held).2.node =
      (carryOut (remote.disturbed schedule) held.loader request (held.node, state)).node.1 :=
  congrArg Prod.fst (node_perform _ _ _ request)

theorem result_of_attempt (request : Request) :
    (attempt schedule state request held).1 =
      (carryOut (remote.disturbed schedule) held.loader request (held.node, state)).result.map
        Prod.snd :=
  result_perform _ _ _ request

theorem push_attempt_stopped {payload : Bytes} {commandLine : Text} {stop : Stop}
    (stopped : (attempt schedule state (.push payload commandLine) held).1 = .error stop) :
    (attempt schedule state (.push payload commandLine) held).2 = held := by
  have loader := loader_of_attempt schedule state held stopped
  have node := node_of_attempt schedule state held (.push payload commandLine)
  rw [result_of_attempt, carry_out_push] at stopped
  rw [carry_out_push] at node
  cases ended : (held.loader.push (remote.disturbed schedule) payload commandLine
      (held.node, state)).result with
  | ok pushed =>
      simp only [ended] at stopped
      cases stopped
  | error other =>
      simp only [Loader.push_disturbed_still schedule ended] at node
      exact (congrArg (Held.mk · _) node).trans (congrArg (Held.mk held.node) loader)

/-- A push that gets through the faults does what it does without them. -/
theorem attempt_push_agrees {payload : Bytes} {commandLine : Text} {reply : Reply}
    (done : (attempt schedule state (.push payload commandLine) held).1 = .ok reply) :
    (perform remote (.push payload commandLine) held).result = .ok reply ∧
      (attempt schedule state (.push payload commandLine) held).2 =
        (perform remote (.push payload commandLine) held).node := by
  rw [attempt, perform_eq_settle] at done ⊢
  rw [perform_eq_settle]
  simp only [settle, carry_out_push] at done ⊢
  rcases Loader.push_disturbed schedule held.loader payload commandLine held.node state with
    agrees | halts
  · rw [agrees.result] at done ⊢
    cases ended : (held.loader.push remote payload commandLine held.node).result with
    | ok pushed =>
        rw [ended] at done
        exact ⟨done, congrArg (Held.mk · pushed.1) agrees.node⟩
    | error stop =>
        rw [ended] at done
        cases done
  · obtain ⟨stop, failed⟩ := halts.result
    rw [failed] at done
    cases done

/-- An attempt to arm that is stopped has written a part of what publishing writes. -/
theorem arm_attempt_stopped {block : Bytes} (present : held.node.absent = false)
    (pushing : held.loader.phase = .pushing) (made : held.loader.descriptorBlock = .ok block)
    (aligned : held.loader.controlBlock % 4 = 0) {stop : Stop}
    (stopped : (attempt schedule state .arm held).1 = .error stop) :
    ∃ issued, issued <+: held.loader.publication held.node.memory block ∧
      held.node.Took issued (attempt schedule state .arm held).2.node := by
  have node := node_of_attempt schedule state held .arm
  rw [result_of_attempt, carry_out_arm] at stopped
  rw [carry_out_arm] at node
  rcases Loader.arm_disturbed schedule present pushing made aligned state with
    agrees | ⟨_, issued, front, took⟩
  · have done := agrees.result.trans
      (Loader.arm_returns present pushing made aligned).result
    simp only [done] at stopped
    cases stopped
  · rw [node]
    exact ⟨issued, front, took⟩

end Attempt

/-- Stopped attempts to arm leave the loader as it was, and memory from which arming comes to the
same end. -/
structure Underway (block : Bytes) (held middle : Held Node) : Prop where
  loader : middle.loader = held.loader
  present : middle.node.absent = false
  ends : middle.node.memory.replay (held.loader.arming middle.node.memory block) =
    held.node.memory.replay (held.loader.arming held.node.memory block)

theorem underway_of_tried {held middle : Held Node} {block : Bytes}
    (present : held.node.absent = false) (pushing : held.loader.phase = .pushing)
    (made : held.loader.descriptorBlock = .ok block)
    (aligned : held.loader.controlBlock % 4 = 0) (tried : Tried (· = .arm) held middle) :
    Underway block held middle := by
  induction tried with
  | start => exact ⟨rfl, present, rfl⟩
  | again tried schedule state permitted stopped ih =>
      -- Memory differs from attempt to attempt; what stays the same is where arming leads.
      cases permitted
      have loader := loader_of_attempt schedule state _ stopped
      obtain ⟨issued, front, took⟩ := arm_attempt_stopped schedule state _ ih.present
        (by rw [ih.loader, pushing]) (by rw [ih.loader, made]) (by rw [ih.loader, aligned]) stopped
      rw [ih.loader] at front
      refine ⟨loader.trans ih.loader, took.present ih.present, ?_⟩
      rw [took.memory, Loader.replay_arming_again _ _ _ front, ih.ends]

theorem unchanged_of_tried {held middle : Held Node} (tried : Tried IsPush held middle) :
    middle = held := by
  induction tried with
  | start => rfl
  | again tried schedule state permitted stopped ih =>
      cases permitted with
      | push payload commandLine => rw [push_attempt_stopped schedule state _ stopped, ih]

theorem perform_arm_returns (held : Held Node) {block : Bytes} (present : held.node.absent = false)
    (pushing : held.loader.phase = .pushing) (made : held.loader.descriptorBlock = .ok block)
    (aligned : held.loader.controlBlock % 4 = 0) :
    (perform remote .arm held).result = .ok .armed ∧
      (perform remote .arm held).node.loader = { held.loader with phase := .armed } ∧
      (perform remote .arm held).node.node.memory =
        held.node.memory.replay (held.loader.arming held.node.memory block) := by
  have returns := Loader.arm_returns present pushing made aligned
  have result := result_perform remote held.loader held.node .arm
  have node := node_perform remote held.loader held.node .arm
  have loader := loader_perform remote held.loader held.node .arm
  rw [carry_out_arm] at result node loader
  simp only [returns.result] at result loader
  refine ⟨result, loader, ?_⟩
  rw [node]
  exact returns.took.memory

/-- However often arming was stopped, arming without faults succeeds and leaves loader and memory as
if nothing had been stopped; and pushes that were stopped leave nothing behind, so a push that
succeeds at last is the push that succeeds at once. -/
theorem retries_converge (held : Held Node) :
    (∀ block after, held.node.absent = false → held.loader.phase = .pushing →
      held.loader.controlBlock % 4 = 0 → held.loader.descriptorBlock = .ok block →
      Tried (· = .arm) held after →
        let last := perform remote .arm after
        let alone := perform remote .arm held
        last.result = .ok .armed ∧ last.node.loader.phase = .armed ∧
          last.node.node.memory = alone.node.node.memory ∧
          alone.result = .ok .armed ∧ last.node.loader = alone.node.loader) ∧
    ∀ after, Tried IsPush held after →
      ∀ payload commandLine {τ : Type} (schedule : Schedule τ) (state : τ) reply,
        (attempt schedule state (.push payload commandLine) after).1 = .ok reply →
          let alone := perform remote (.push payload commandLine) held
          alone.result = .ok reply ∧
            (attempt schedule state (.push payload commandLine) after).2 = alone.node := by
  constructor
  · intro block after present pushing aligned made tried last alone
    have underway := underway_of_tried present pushing made aligned tried
    have again := perform_arm_returns after underway.present
      (by rw [underway.loader, pushing]) (by rw [underway.loader, made])
      (by rw [underway.loader, aligned])
    have once := perform_arm_returns held present pushing made aligned
    rw [underway.loader] at again
    refine ⟨again.1, ?_, ?_, once.1, again.2.1.trans once.2.1.symm⟩
    · rw [again.2.1]
    · rw [again.2.2, once.2.2, underway.ends]
  · intro after tried payload commandLine τ schedule state reply done
    rw [unchanged_of_tried tried] at done ⊢
    exact attempt_push_agrees schedule state held done

/-- A loader in the middle of pushing, on a node that waits. -/
def heldPushing : Held Node :=
  ⟨Node.withAgent 0x9f000, ⟨0x9f000, .pushing, 0x1001000, [⟨0x1000000, 0x1000003, "k one".toList⟩]⟩⟩

/-- The request behind one plan of faults after the other: how each attempt ended, and what the last
one left. -/
def attempts (request : Request) : List FaultPlan → Held Node → List (Except Stop Reply) × Held Node
  | [], held => ([], held)
  | plan :: plans, held =>
    let first := attempt FaultPlan.schedule plan request held
    let others := attempts request plans first.2
    (first.1 :: others.1, others.2)

theorem tried_of_attempts {allowed : Request → Prop} {start held : Held Node}
    (tried : Tried allowed start held) {request : Request} (permitted : allowed request)
    {plans : List FaultPlan}
    (stopped : ∀ result ∈ (attempts request plans held).1, result.toOption = none) :
    Tried allowed start (attempts request plans held).2 := by
  induction plans generalizing held with
  | nil => exact tried
  | cons plan plans ih =>
      rw [attempts, List.forall_mem_cons] at stopped
      exact ih (tried.again_of_none plan permitted stopped.1) stopped.2

/-- Arming is stopped at each of its five transfers in turn, with what came before it written again
and again, and then goes through; a push is stopped twice, and then goes through. -/
theorem stopped_at_each_transfer :
    let arms := attempts .arm [{ writeFaults := [0xa3000] }, { readFaults := [0x9f000] },
      { writeFaults := [0x9f000] }, { writeFaults := [0x9f018] }, { writeFaults := [0x9f014] }]
      heldPushing
    let pushes := attempts (.push [7] "m".toList)
      [{ writeFaults := [0x1001000] }, { writeFaults := [0x1001000] }] heldPushing
    ((arms.1.map fun result => (fault? result).map Fault.isRetryable) =
        List.replicate 5 (some true) ∧
      arms.2.node.writes.map Write.address =
        [0xa3000, 0xa3000, 0xa3000, 0x9f000, 0xa3000, 0x9f000, 0x9f018] ∧
      (perform remote .arm arms.2).result = .ok .armed ∧
      (perform remote .arm arms.2).node.node.memory =
        (perform remote .arm heldPushing).node.node.memory) ∧
    (pushes.1.map fun result => (fault? result).map Fault.isRetryable) =
        List.replicate 2 (some true) ∧
      (attempt FaultPlan.schedule {} (.push [7] "m".toList) pushes.2).2 =
        (perform remote (.push [7] "m".toList) heldPushing).node := by
  intro arms pushes
  have converge := retries_converge heldPushing
  constructor
  · have made : heldPushing.loader.descriptorBlock =
        .ok (heldPushing.loader.descriptorBlock.toOption.getD []) :=
      ok_of_to_option (by decide +kernel)
    have stopped : ∀ result ∈ arms.1, result.toOption = none := by decide +kernel
    have tried : Tried (· = .arm) heldPushing arms.2 :=
      tried_of_attempts .start (by exact rfl) stopped
    have armed := converge.1 _ arms.2 rfl rfl rfl made tried
    exact ⟨by decide +kernel, by decide +kernel, armed.1, armed.2.2.1⟩
  · have stopped : ∀ result ∈ pushes.1, result.toOption = none := by decide +kernel
    have tried := tried_of_attempts .start (IsPush.push [7] "m".toList) stopped
    have pushed := converge.2 _ tried [7] "m".toList FaultPlan.schedule {}
      (.pushed ⟨0x1001000, 0x1001001, "m".toList⟩) (ok_of_to_option (by decide +kernel))
    exact ⟨by decide +kernel, pushed.2⟩

end RemoteBoot.Multiboot
