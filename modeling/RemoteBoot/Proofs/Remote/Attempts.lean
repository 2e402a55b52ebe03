import RemoteBoot.Proofs.Remote.Tracking

/-!
# Writes that are attempted in order

A remote that keeps every write with its answer.  An action that only makes certain writes, one
behind the other, attempts them in order up to the first that fails, and ends as that one did.
-/

set_option autoImplicit false

namespace RemoteBoot

variable {σ α β : Type}

/-- A write with what came of it. -/
structure Attempt where
  write : Write
  answer : Except Stop Unit

/-- A write that succeeded. -/
def Attempt.granted (write : Write) : Attempt :=
  ⟨write, .ok ()⟩

/-- The remote that also keeps a list of all attempted writes. -/
def Remote.attempted (remote : Remote σ) : Remote (σ × List Attempt) where
  read address length := fun (node, attempts) =>
    let left := remote.read address length node
    ⟨left.result, (left.node, attempts), left.notes⟩
  write address bytes := fun (node, attempts) =>
    let left := remote.write address bytes node
    ⟨left.result, (left.node, attempts ++ [⟨⟨address, bytes⟩, left.result⟩]), left.notes⟩

/-- The node of a remote that keeps its writes is the node of the remote. -/
def Keeps (kept : σ × List Attempt) (node : σ) : Prop :=
  kept.1 = node

theorem attempted_writes (remote : Remote σ) : WritesTrack Keeps remote.attempted remote := by
  intro address bytes
  apply Tracks.of_transfer
  rintro ⟨node, attempts⟩ place rfl
  exact ⟨rfl, rfl⟩

theorem bind_behind_attempts {first : Engine (σ × List Attempt) α}
    (next : α → Engine (σ × List Attempt) β) {node : σ} {earlier attempts : List Attempt} {value : α}
    (kept : (first (node, earlier)).node.2 = earlier ++ attempts)
    (reached : (first (node, earlier)).result = .ok value) :
    ((first >>= next) (node, earlier)).result =
        (next value ((first (node, earlier)).node.1, earlier ++ attempts)).result ∧
      ((first >>= next) (node, earlier)).node =
        (next value ((first (node, earlier)).node.1, earlier ++ attempts)).node := by
  rw [← kept]
  exact Engine.bind_of_ok next reached

/-- Writes are attempted in order up to the first that fails. -/
inductive InOrder : List Write → List Attempt → Except Stop Unit → Prop where
  | done : InOrder [] [] (.ok ())
  | granted {write : Write} {rest : List Write} {attempts : List Attempt}
      {result : Except Stop Unit} (later : InOrder rest attempts result) :
      InOrder (write :: rest) (.granted write :: attempts) result
  | lost {write : Write} {rest : List Write} {stop : Stop} :
      InOrder (write :: rest) [⟨write, .error stop⟩] (.error stop)

namespace InOrder

variable {writes later : List Write} {attempts others : List Attempt}
  {result final : Except Stop Unit}

theorem front (order : InOrder writes attempts result) :
    attempts.map Attempt.write <+: writes := by
  induction order with
  | done => exact List.prefix_refl []
  | granted later ih => exact List.cons_prefix_cons.mpr ⟨rfl, ih⟩
  | lost => exact List.cons_prefix_cons.mpr ⟨rfl, List.nil_prefix⟩

theorem ok_iff (order : InOrder writes attempts result) :
    result = .ok () ↔ attempts = writes.map Attempt.granted := by
  induction order with
  | done => exact iff_of_true rfl rfl
  | granted later ih =>
      rw [ih, List.map_cons, List.cons_inj_right]
  | lost =>
      refine iff_of_false (fun same => by cases same) ?_
      intro same
      cases congrArg (fun attempts => attempts.map Attempt.answer) same

/-- What stopped the writes is the answer to the last one that was attempted, and all before it
succeeded. -/
theorem stopped (order : InOrder writes attempts result) {stop : Stop}
    (failed : result = .error stop) :
    ∃ (front : List Write) (lost : Write),
      attempts = front.map Attempt.granted ++ [⟨lost, .error stop⟩] := by
  induction order with
  | done => cases failed
  | @granted write rest attempts result later ih =>
      obtain ⟨front, lost, rfl⟩ := ih failed
      exact ⟨write :: front, lost, rfl⟩
  | @lost write rest stop =>
      cases failed
      exact ⟨[], write, rfl⟩

theorem append (order : InOrder writes attempts (.ok ())) (more : InOrder later others final) :
    InOrder (writes ++ later) (attempts ++ others) final := by
  generalize succeeded : (Except.ok () : Except Stop Unit) = result at order
  induction order with
  | done => exact more
  | granted _ ih => exact .granted (ih succeeded)
  | lost => cases succeeded

theorem append_of_stopped {stop : Stop} (order : InOrder writes attempts (.error stop))
    (later : List Write) : InOrder (writes ++ later) attempts (.error stop) := by
  generalize failed : (Except.error stop : Except Stop Unit) = result at order
  induction order with
  | done => cases failed
  | granted _ ih => exact .granted (ih failed)
  | lost =>
      cases failed
      exact .lost

end InOrder

/-- The writes that the action issues are these, attempted in order, and it ends as they do. -/
structure Attempts (action : Engine (σ × List Attempt) Unit) (writes : List Write) : Prop where
  own : ∀ node earlier, ∃ attempts, (action (node, earlier)).node.2 = earlier ++ attempts ∧
    InOrder writes attempts (action (node, earlier)).result

namespace Attempts

variable {writes later : List Write}

theorem note (level : Level) (origin : Origin) (text : String) :
    Attempts (Engine.note level origin text : Engine (σ × List Attempt) Unit) [] :=
  ⟨fun _ earlier => ⟨[], (List.append_nil earlier).symm, .done⟩⟩

theorem store (remote : Remote σ) (address : Nat) (bytes : Bytes) :
    Attempts (remote.attempted.store address bytes) [⟨address, bytes⟩] := by
  constructor
  intro node earlier
  simp only [Remote.store, Transfer.toEngine, Remote.attempted]
  cases (remote.write address bytes node).result with
  | ok done => exact ⟨_, rfl, .granted .done⟩
  | error stop => exact ⟨_, rfl, .lost⟩

theorem bind {first second : Engine (σ × List Attempt) Unit} (begins : Attempts first writes)
    (goes : Attempts second later) : Attempts (first >>= fun _ => second) (writes ++ later) := by
  constructor
  intro node earlier
  obtain ⟨attempts, kept, order⟩ := begins.own node earlier
  cases reached : (first (node, earlier)).result with
  | ok done =>
      rw [reached] at order
      obtain ⟨others, more, final⟩ := goes.own (first (node, earlier)).node.1 (earlier ++ attempts)
      have left := bind_behind_attempts (fun _ => second) kept reached
      rw [left.1, left.2]
      exact ⟨attempts ++ others, by rw [more, List.append_assoc], order.append final⟩
  | error stop =>
      rw [reached] at order
      have left := Engine.bind_of_error (fun _ => second) reached
      rw [left.1, left.2]
      exact ⟨attempts, kept, order.append_of_stopped later⟩

end Attempts
end RemoteBoot
