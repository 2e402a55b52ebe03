import RemoteBoot.Multiboot.Held
import RemoteBoot.Proofs.Multiboot.Operations

/-!
# A loader in place does what a loader does

Changing a loader in place comes to the same as an operation that returns the changed loader: every
field is assigned behind the last step that can stop, so an operation that stops leaves the loader
as it was.  The next page is formed between two assignments, of an end that 32 bits hold, so that it
does not stop.  From this follows what one request can do to a loader, whatever the node does.
-/

set_option autoImplicit false

namespace RemoteBoot.Multiboot

variable {σ α β : Type}

namespace Held

/-- Puts the loader that an action returns in its place; a stopped action leaves the old one. -/
def settle (action : Engine σ (Loader × α)) : Engine (Held σ) α := fun held =>
  let left := action held.node
  match left.result with
  | .ok (loader, value) => ⟨.ok value, ⟨left.node, loader⟩, left.notes⟩
  | .error stop => ⟨.error stop, ⟨left.node, held.loader⟩, left.notes⟩

theorem settle_bind (first : Engine σ α) (next : α → Engine σ (Loader × β)) :
    settle (first >>= next) = (onNode first >>= fun value => settle (next value)) := by
  funext held
  simp only [settle, Engine.bind_apply, onNode]
  cases (first held.node).result with
  | error stop => rfl
  | ok value =>
      simp only
      cases (next value (first held.node).node).result <;> rfl

theorem on_node_of_except (result : Except Fault α) :
    onNode (Engine.ofExcept result : Engine σ α) = Engine.ofExcept result := by
  cases result <;> rfl

theorem on_node_of_checked (result : Except Stop α) :
    onNode (Engine.ofChecked result : Engine σ α) = Engine.ofChecked result := rfl

theorem on_node_note (level : Level) (origin : Origin) (text : String) :
    onNode (Engine.note level origin text : Engine σ Unit) = Engine.note level origin text := rfl

/-- The action leaves the loader alone, also where it stops. -/
def Steady (action : Engine (Held σ) α) : Prop :=
  ∀ held, (action held).node.loader = held.loader

theorem steady_on_node (action : Engine σ α) : Steady (onNode action) :=
  fun _ => rfl

theorem steady_note (level : Level) (origin : Origin) (text : String) :
    Steady (Engine.note level origin text : Engine (Held σ) Unit) :=
  fun _ => rfl

theorem steady_of_except (result : Except Fault α) :
    Steady (Engine.ofExcept result : Engine (Held σ) α) := by
  cases result <;> exact fun _ => rfl

theorem steady_of_checked (result : Except Stop α) :
    Steady (Engine.ofChecked result : Engine (Held σ) α) :=
  fun _ => rfl

/-- Behind an action that leaves the loader alone, what follows need only agree at this loader. -/
theorem Steady.bind_congr {first : Engine (Held σ) α} {next other : α → Engine (Held σ) β}
    (steady : Steady first) {loader : Loader}
    (same : ∀ value node, next value ⟨node, loader⟩ = other value ⟨node, loader⟩) (node : σ) :
    (first >>= next) ⟨node, loader⟩ = (first >>= other) ⟨node, loader⟩ := by
  have kept : (first ⟨node, loader⟩).node = ⟨(first ⟨node, loader⟩).node.node, loader⟩ :=
    congrArg (Held.mk _) (steady ⟨node, loader⟩)
  rw [Engine.bind_apply, Engine.bind_apply, kept]
  cases (first ⟨node, loader⟩).result with
  | error stop => rfl
  | ok value => simp only [same]

theorem current_bind (next : Loader → Engine (Held σ) α) (held : Held σ) :
    (current >>= next) held = next held.loader held := rfl

/-- The request as an operation that returns the changed loader. -/
def carryOut (remote : Remote σ) (loader : Loader) : Request → Engine σ (Loader × Reply)
  | .setAddress address => do
    let loader ← loader.setAddress address
    pure (loader, .moved)
  | .push payload commandLine => do
    let (loader, module) ← loader.push remote payload commandLine
    pure (loader, .pushed module)
  | .arm => do
    let loader ← loader.arm remote
    pure (loader, .armed)

section Same

variable (remote : Remote σ) (loader : Loader) (node : σ)

theorem perform_set_address (address : Nat) :
    perform remote (.setAddress address) ⟨node, loader⟩ =
      settle (carryOut remote loader (.setAddress address)) ⟨node, loader⟩ := by
  simp only [perform, setAddress, carryOut, Loader.setAddress, bind_assoc, pure_bind, settle_bind,
    on_node_of_except, on_node_note, current_bind]
  apply (steady_of_except _).bind_congr
  intro opened node
  apply (steady_note _ _ _).bind_congr
  intro noted node
  rfl

theorem perform_push (payload : Bytes) (commandLine : Text) :
    perform remote (.push payload commandLine) ⟨node, loader⟩ =
      settle (carryOut remote loader (.push payload commandLine)) ⟨node, loader⟩ := by
  simp only [perform, push, carryOut, Loader.push, bind_assoc, pure_bind, settle_bind,
    on_node_of_except, on_node_of_checked, on_node_note, current_bind]
  apply (steady_of_except _).bind_congr
  intro opened node
  apply (steady_of_except _).bind_congr
  intro start node
  apply (steady_of_checked _).bind_congr
  intro stop node
  by_cases fits : stop < 0x100000000
  · simp only [narrow_of_lt fits, Loader.align_up_of_lt fits, Engine.of_except_ok,
      Engine.of_checked_ok, pure_bind]
    apply (steady_on_node _).bind_congr
    intro stored node
    apply (steady_note _ _ _).bind_congr
    intro noted node
    rfl
  · simp only [narrow_of_le (Nat.not_lt.mp fits), Engine.of_except_error, Engine.fail_bind]

theorem perform_arm :
    perform remote .arm ⟨node, loader⟩ = settle (carryOut remote loader .arm) ⟨node, loader⟩ := by
  simp only [perform, arm, carryOut, Loader.arm, bind_assoc, current_bind]
  cases loader.phase with
  | armed => rfl
  | idle => rfl
  | pushing =>
      simp only [bind_assoc, settle_bind, on_node_of_except, on_node_of_checked, on_node_note]
      apply (steady_of_checked _).bind_congr
      intro base node
      apply (steady_of_checked _).bind_congr
      intro block node
      apply (steady_note _ _ _).bind_congr
      intro announced node
      apply (steady_on_node _).bind_congr
      intro stored node
      apply (steady_on_node _).bind_congr
      intro control node
      apply (steady_on_node _).bind_congr
      intro flagged node
      apply (steady_of_except _).bind_congr
      intro address node
      apply (steady_on_node _).bind_congr
      intro addressed node
      apply (steady_note _ _ _).bind_congr
      intro signalled node
      apply (steady_on_node _).bind_congr
      intro counted node
      by_cases single : UInt32.ofNat loader.modules.length = 1
      · simp only [if_pos single]
        rfl
      · simp only [if_neg single]
        rfl

theorem perform_eq_settle (request : Request) :
    perform remote request ⟨node, loader⟩ =
      settle (carryOut remote loader request) ⟨node, loader⟩ := by
  cases request with
  | setAddress address => exact perform_set_address remote loader node address
  | push payload commandLine => exact perform_push remote loader node payload commandLine
  | arm => exact perform_arm remote loader node

theorem result_perform (request : Request) :
    (perform remote request ⟨node, loader⟩).result =
      (carryOut remote loader request node).result.map Prod.snd := by
  rw [perform_eq_settle, settle]
  cases (carryOut remote loader request node).result <;> rfl

theorem node_perform (request : Request) :
    (perform remote request ⟨node, loader⟩).node.node =
      (carryOut remote loader request node).node := by
  rw [perform_eq_settle, settle]
  cases (carryOut remote loader request node).result <;> rfl

theorem loader_perform (request : Request) :
    (perform remote request ⟨node, loader⟩).node.loader =
      match (carryOut remote loader request node).result with
      | .ok (after, _) => after
      | .error _ => loader := by
  rw [perform_eq_settle, settle]
  cases (carryOut remote loader request node).result <;> rfl

theorem loader_of_stopped {request : Request} {stop : Stop}
    (stopped : (perform remote request ⟨node, loader⟩).result = .error stop) :
    (perform remote request ⟨node, loader⟩).node.loader = loader := by
  rw [result_perform] at stopped
  rw [loader_perform]
  cases ended : (carryOut remote loader request node).result with
  | error other => rfl
  | ok value =>
      rw [ended] at stopped
      cases stopped

theorem carry_out_push (payload : Bytes) (commandLine : Text) :
    carryOut remote loader (.push payload commandLine) node =
      let left := loader.push remote payload commandLine node
      ⟨left.result.map fun pushed => (pushed.1, .pushed pushed.2), left.node, left.notes⟩ :=
  Engine.bind_pure_apply _ _ node

theorem carry_out_arm :
    carryOut remote loader .arm node =
      let left := loader.arm remote node
      ⟨left.result.map fun armed => (armed, .armed), left.node, left.notes⟩ :=
  Engine.bind_pure_apply _ _ node

end Same

end Held
end RemoteBoot.Multiboot
