import RemoteBoot.Proofs.Node.Transfers
import RemoteBoot.Remote.Disturbed

/-!
# Actions under disturbance

An action on a disturbed node shadows the same action on the calm node: as long as no transfer is
hit it does the same, and a transfer that is hit makes it stop with a part of the calm writes.  A
transfer alone need not shadow, because a read that was cut short still returns; what shadows is a
read together with the check of its length.
-/

set_option autoImplicit false

namespace RemoteBoot

open Multiboot

variable {τ α β : Type}

/-- Whatever the action does to a node are writes that the node takes. -/
def Takes (action : Engine Node α) : Prop :=
  ∀ node : Node, ∃ issued, node.Took issued (action node).node

/-- The disturbed action ends like the calm one, at the same node. -/
structure Agrees (disturbed : Engine (Node × τ) α) (calm : Engine Node α) (node : Node)
    (state : τ) : Prop where
  result : (disturbed (node, state)).result = (calm node).result
  node : (disturbed (node, state)).node.1 = (calm node).node

/-- The disturbed action stops with a part of the writes of the calm one. -/
structure BreaksOff (disturbed : Engine (Node × τ) α) (calm : Engine Node α) (node : Node)
    (state : τ) : Prop where
  result : ∃ stop, (disturbed (node, state)).result = .error stop
  took : ∃ issued, node.Took issued (disturbed (node, state)).node.1
  behind : (disturbed (node, state)).node.1.writes <+: (calm node).node.writes

/-- The disturbed action stops and leaves the node as it was. -/
structure Halts (disturbed : Engine (Node × τ) α) (node : Node) (state : τ) : Prop where
  result : ∃ stop, (disturbed (node, state)).result = .error stop
  node : (disturbed (node, state)).node.1 = node

structure Shadows (disturbed : Engine (Node × τ) α) (calm : Engine Node α) : Prop where
  takes : Takes calm
  follows : ∀ node state, Agrees disturbed calm node state ∨ BreaksOff disturbed calm node state

/-- The action stops at once, whatever the node. -/
def Refuses (action : Engine (Node × τ) α) : Prop :=
  ∀ place, (∃ stop, (action place).result = .error stop) ∧ (action place).node = place

theorem refuses_fail (fault : Fault) : Refuses (Engine.fail fault : Engine (Node × τ) α) :=
  fun _ => ⟨⟨.fault fault, rfl⟩, rfl⟩

theorem refuses_note_bind {next : Unit → Engine (Node × τ) α} (refuses : Refuses (next ()))
    (level : Level) (origin : Origin) (text : String) :
    Refuses (Engine.note level origin text >>= next) := by
  intro place
  have noted : (Engine.note level origin text place).result = .ok () := rfl
  have rest := Engine.bind_of_ok next noted
  rw [rest.1, rest.2]
  exact refuses place

namespace Takes

theorem grows {action : Engine Node α} (takes : Takes action) (node : Node) :
    node.writes <+: (action node).node.writes := by
  obtain ⟨issued, took⟩ := takes node
  rw [took.log]
  exact List.prefix_append _ _

theorem bind_extends (first : Engine Node α) {next : α → Engine Node β}
    (goes : ∀ value, Takes (next value)) (node : Node) :
    (first node).node.writes <+: ((first >>= next) node).node.writes := by
  cases reached : (first node).result with
  | ok value =>
      rw [(Engine.bind_of_ok next reached).2]
      exact (goes value).grows _
  | error stop =>
      have same := (Engine.bind_of_error next reached).2
      exact ⟨[], by rw [List.append_nil, same]⟩

theorem bind {first : Engine Node α} {next : α → Engine Node β} (begins : Takes first)
    (goes : ∀ value, Takes (next value)) : Takes (first >>= next) := by
  intro node
  obtain ⟨earlier, begun⟩ := begins node
  cases reached : (first node).result with
  | ok value =>
      obtain ⟨later, continued⟩ := goes value (first node).node
      rw [(Engine.bind_of_ok next reached).2]
      exact ⟨earlier ++ later, begun.trans continued⟩
  | error stop =>
      rw [(Engine.bind_of_error next reached).2]
      exact ⟨earlier, begun⟩

theorem attempt {action : Engine Node α} (takes : Takes action) :
    Takes (Engine.attempt action) := by
  intro node
  rw [Engine.node_attempt]
  exact takes node

end Takes

/-- A stop that comes without effect breaks off whatever the calm action goes on to write. -/
theorem breaks_off_at_once {disturbed : Engine (Node × τ) α} {calm : Engine Node α}
    {node : Node} {state : τ} (takes : Takes calm)
    (stopped : ∃ stop, (disturbed (node, state)).result = .error stop)
    (still : node.Took [] (disturbed (node, state)).node.1) :
    BreaksOff disturbed calm node state := by
  refine ⟨stopped, ⟨[], still⟩, ?_⟩
  rw [still.log, List.append_nil]
  exact takes.grows node

theorem Halts.bind {first : Engine (Node × τ) α} {node : Node} {state : τ}
    (halts : Halts first node state) (next : α → Engine (Node × τ) β) :
    Halts (first >>= next) node state := by
  obtain ⟨stop, failed⟩ := halts.result
  have left := Engine.bind_of_error next failed
  refine ⟨⟨stop, left.1⟩, ?_⟩
  rw [left.2]
  exact halts.node

theorem Halts.note_bind {next : Unit → Engine (Node × τ) β} {node : Node} {state : τ}
    (halts : Halts (next ()) node state) (level : Level) (origin : Origin) (text : String) :
    Halts (Engine.note level origin text >>= next) node state := by
  have noted : (Engine.note level origin text (node, state)).result = .ok () := rfl
  have left := Engine.bind_of_ok next noted
  obtain ⟨stop, failed⟩ := halts.result
  constructor
  · exact ⟨stop, left.1.trans failed⟩
  · rw [left.2]
    exact halts.node

theorem Agrees.bind {first' : Engine (Node × τ) α} {first : Engine Node α}
    {next' : α → Engine (Node × τ) β} {next : α → Engine Node β} {node : Node} {state : τ}
    (agrees : Agrees first' first node state)
    (rest : ∀ value, (first node).result = .ok value →
      Agrees (next' value) (next value) (first node).node (first' (node, state)).node.2) :
    Agrees (first' >>= next') (first >>= next) node state := by
  have split : (first' (node, state)).node = ((first node).node, (first' (node, state)).node.2) :=
    Prod.ext agrees.node rfl
  cases reached : (first node).result with
  | error stop =>
      have left := Engine.bind_of_error next' (agrees.result.trans reached)
      have right := Engine.bind_of_error next reached
      constructor
      · rw [left.1, right.1]
      · rw [left.2, right.2, agrees.node]
  | ok value =>
      have left := Engine.bind_of_ok next' (agrees.result.trans reached)
      have right := Engine.bind_of_ok next reached
      have same := rest value reached
      rw [split] at left
      constructor
      · rw [left.1, right.1, same.result]
      · rw [left.2, right.2, same.node]

namespace Shadows

/-- Once the first actions agree, the second ones decide. -/
theorem follows_of_agrees {first' : Engine (Node × τ) α} {first : Engine Node α}
    {next' : α → Engine (Node × τ) β} {next : α → Engine Node β} {node : Node} {state : τ}
    (takes : Takes first) (agrees : Agrees first' first node state)
    (rest : ∀ value, Shadows (next' value) (next value)) :
    Agrees (first' >>= next') (first >>= next) node state ∨
      BreaksOff (first' >>= next') (first >>= next) node state := by
  have split : (first' (node, state)).node = ((first node).node, (first' (node, state)).node.2) :=
    Prod.ext agrees.node rfl
  cases reached : (first node).result with
  | error stop =>
      refine Or.inl (agrees.bind ?_)
      intro value returned
      rw [reached] at returned
      cases returned
  | ok value =>
      rcases (rest value).follows (first node).node (first' (node, state)).node.2 with
        same | broken
      · refine Or.inl (agrees.bind ?_)
        intro other returned
        rw [reached] at returned
        cases returned
        exact same
      · have left := Engine.bind_of_ok next' (agrees.result.trans reached)
        have right := Engine.bind_of_ok next reached
        rw [split] at left
        obtain ⟨earlier, begun⟩ := takes node
        obtain ⟨later, continued⟩ := broken.took
        refine Or.inr ⟨?_, ⟨earlier ++ later, ?_⟩, ?_⟩
        · rw [left.1]
          exact broken.result
        · rw [left.2]
          exact begun.trans continued
        · rw [left.2, right.2]
          exact broken.behind

theorem bind {first' : Engine (Node × τ) α} {first : Engine Node α}
    {next' : α → Engine (Node × τ) β} {next : α → Engine Node β} (begins : Shadows first' first)
    (rest : ∀ value, Shadows (next' value) (next value)) :
    Shadows (first' >>= next') (first >>= next) := by
  have goes : ∀ value, Takes (next value) := fun value => (rest value).takes
  refine ⟨begins.takes.bind goes, ?_⟩
  intro node state
  rcases begins.follows node state with agrees | broken
  · exact follows_of_agrees begins.takes agrees rest
  · obtain ⟨stop, failed⟩ := broken.result
    have left := Engine.bind_of_error next' failed
    refine Or.inr ⟨⟨stop, left.1⟩, ?_, ?_⟩
    · rw [left.2]
      exact broken.took
    · rw [left.2]
      exact broken.behind.trans (Takes.bind_extends first goes node)

/-- An attempt hides that the disturbed action stopped; it shadows together with what follows if
that refuses to go on behind a fault. -/
theorem attempt_bind {action' : Engine (Node × τ) α} {action : Engine Node α}
    {next' : Except Fault α → Engine (Node × τ) β} {next : Except Fault α → Engine Node β}
    (begins : Shadows action' action) (rest : ∀ attempted, Shadows (next' attempted) (next attempted))
    (refuses : ∀ fault, Refuses (next' (.error fault))) :
    Shadows (Engine.attempt action' >>= next') (Engine.attempt action >>= next) := by
  have goes : ∀ attempted, Takes (next attempted) := fun attempted => (rest attempted).takes
  refine ⟨begins.takes.attempt.bind goes, ?_⟩
  intro node state
  rcases begins.follows node state with agrees | broken
  · apply follows_of_agrees begins.takes.attempt ?_ rest
    constructor
    · rw [Engine.result_attempt, Engine.result_attempt, agrees.result]
    · rw [Engine.node_attempt, Engine.node_attempt, agrees.node]
  · have behind : (action' (node, state)).node.1.writes <+:
        ((Engine.attempt action >>= next) node).node.writes := by
      apply broken.behind.trans
      rw [← Engine.node_attempt]
      exact Takes.bind_extends _ goes node
    obtain ⟨stop, failed⟩ := broken.result
    cases stop with
    | fault fault =>
        -- The attempt returns here, and the next action has to stop it.
        have attempted : (Engine.attempt action' (node, state)).result = .ok (.error fault) := by
          rw [Engine.result_attempt, failed]
        have left := Engine.bind_of_ok next' attempted
        obtain ⟨⟨stop, refused⟩, still⟩ :=
          refuses fault (Engine.attempt action' (node, state)).node
        rw [still, refused, Engine.node_attempt] at left
        refine Or.inr ⟨⟨stop, left.1⟩, ?_, ?_⟩
        · rw [left.2]
          exact broken.took
        · rw [left.2]
          exact behind
    | crash crash =>
        have attempted : (Engine.attempt action' (node, state)).result = .error (.crash crash) := by
          rw [Engine.result_attempt, failed]
        have left := Engine.bind_of_error next' attempted
        rw [Engine.node_attempt] at left
        refine Or.inr ⟨⟨_, left.1⟩, ?_, ?_⟩
        · rw [left.2]
          exact broken.took
        · rw [left.2]
          exact behind

/-- An action that does not touch the node shadows itself. -/
theorem of_still {disturbed : Engine (Node × τ) α} {calm : Engine Node α}
    {result : Except Stop α} (left : ∀ place, (disturbed place).result = result ∧
      (disturbed place).node = place)
    (right : ∀ node, (calm node).result = result ∧ (calm node).node = node) :
    Shadows disturbed calm := by
  constructor
  · intro node
    rw [(right node).2]
    exact ⟨[], Node.Took.refl node⟩
  · intro node state
    refine Or.inl ⟨?_, ?_⟩
    · rw [(left _).1, (right node).1]
    · rw [(left _).2, (right node).2]

theorem pure (value : α) : Shadows (pure value : Engine (Node × τ) α) (pure value) :=
  of_still (fun _ => ⟨rfl, rfl⟩) fun _ => ⟨rfl, rfl⟩

theorem fail (fault : Fault) :
    Shadows (Engine.fail fault : Engine (Node × τ) α) (Engine.fail fault) :=
  of_still (fun _ => ⟨rfl, rfl⟩) fun _ => ⟨rfl, rfl⟩

theorem crash (crash : Crash) :
    Shadows (Engine.crash crash : Engine (Node × τ) α) (Engine.crash crash) :=
  of_still (fun _ => ⟨rfl, rfl⟩) fun _ => ⟨rfl, rfl⟩

theorem note (level : Level) (origin : Origin) (text : String) :
    Shadows (Engine.note level origin text : Engine (Node × τ) Unit)
      (Engine.note level origin text) :=
  of_still (fun _ => ⟨rfl, rfl⟩) fun _ => ⟨rfl, rfl⟩

theorem of_noted (computation : Noted α) :
    Shadows (Engine.ofNoted computation : Engine (Node × τ) α) (Engine.ofNoted computation) :=
  of_still (fun _ => ⟨rfl, rfl⟩) fun _ => ⟨rfl, rfl⟩

theorem of_checked (result : Except Stop α) :
    Shadows (Engine.ofChecked result : Engine (Node × τ) α) (Engine.ofChecked result) :=
  of_still (fun _ => ⟨rfl, rfl⟩) fun _ => ⟨rfl, rfl⟩

theorem of_except (result : Except Fault α) :
    Shadows (Engine.ofExcept result : Engine (Node × τ) α) (Engine.ofExcept result) := by
  cases result with
  | ok value => exact pure value
  | error fault => exact fail fault

end Shadows

theorem fetch_takes_nothing (address length : Nat) (node : Node) :
    node.Took [] (Node.remote.fetch address length node).node := by
  cases present : node.absent with
  | false =>
      rw [Node.fetch_present present]
      exact ⟨rfl, by simp, rfl⟩
  | true =>
      rw [Node.fetch_absent present]
      exact Node.Took.refl node

theorem length_of_fetched {address length : Nat} {node : Node} {bytes : Bytes}
    (fetched : (Node.remote.fetch address length node).result = .ok bytes) :
    bytes.length = length := by
  cases present : node.absent with
  | false =>
      rw [Node.fetch_present present] at fetched
      cases fetched
      exact Memory.length_peek _ _ _
  | true =>
      rw [Node.fetch_absent present] at fetched
      cases fetched

theorem takes_store (address : Nat) (bytes : Bytes) : Takes (Node.remote.store address bytes) := by
  intro node
  cases present : node.absent with
  | false => exact ⟨_, (Node.returns_store present address bytes).took⟩
  | true =>
      rw [Node.store_absent present]
      exact ⟨[], Node.Took.refl node⟩

section Transfers

variable (schedule : Schedule τ)

theorem fetch_of_verdict (address length : Nat) (node : Node) (state : τ) :
    let left := (Node.remote.disturbed schedule).fetch address length (node, state)
    let calm := Node.remote.fetch address length node
    match (schedule.onRead address length state).1 with
    | .pass => left.result = calm.result ∧ left.node.1 = calm.node
    | .fail fault => left.result = .error (.fault fault) ∧ left.node.1 = node
    | .cut limit => left.result = calm.result.map (·.take limit) ∧ left.node.1 = calm.node := by
  simp only [Remote.fetch, Transfer.toEngine, Remote.disturbed]
  rcases decided : schedule.onRead address length state with ⟨verdict, later⟩
  cases verdict with
  | pass => cases (Node.remote.read address length node).result <;> exact ⟨rfl, rfl⟩
  | fail fault => exact ⟨rfl, rfl⟩
  | cut limit => cases (Node.remote.read address length node).result <;> exact ⟨rfl, rfl⟩

/-- A disturbed read agrees, fails without effect, or returns too few bytes. -/
theorem fetch_disturbed (address length : Nat) (node : Node) (state : τ) :
    Agrees ((Node.remote.disturbed schedule).fetch address length)
        (Node.remote.fetch address length) node state ∨
      node.Took [] ((Node.remote.disturbed schedule).fetch address length (node, state)).node.1 ∧
        ((∃ stop, ((Node.remote.disturbed schedule).fetch address length (node, state)).result =
            .error stop) ∨
          ∃ bytes, bytes.length < length ∧
            ((Node.remote.disturbed schedule).fetch address length (node, state)).result =
              .ok bytes) := by
  have left := fetch_of_verdict schedule address length node state
  have nothing := fetch_takes_nothing address length node
  cases verdict : (schedule.onRead address length state).1 with
  | pass =>
      rw [verdict] at left
      exact Or.inl ⟨left.1, left.2⟩
  | fail fault =>
      rw [verdict] at left
      refine Or.inr ⟨?_, Or.inl ⟨_, left.1⟩⟩
      rw [left.2]
      exact Node.Took.refl node
  | cut limit =>
      rw [verdict] at left
      rw [← left.2] at nothing
      cases fetched : (Node.remote.fetch address length node).result with
      | error stop =>
          refine Or.inr ⟨nothing, Or.inl ⟨stop, ?_⟩⟩
          rw [left.1, fetched]
          rfl
      | ok bytes =>
          have whole := length_of_fetched fetched
          by_cases short : limit < length
          · refine Or.inr ⟨nothing, Or.inr ⟨bytes.take limit, ?_, ?_⟩⟩
            · rw [List.length_take]
              omega
            · rw [left.1, fetched]
              rfl
          · refine Or.inl ⟨?_, left.2⟩
            rw [left.1, fetched]
            exact congrArg Except.ok (List.take_of_length_le (by omega))

/-- A disturbed write agrees or fails without effect. -/
theorem store_disturbed (address : Nat) (bytes : Bytes) (node : Node) (state : τ) :
    Agrees ((Node.remote.disturbed schedule).store address bytes)
        (Node.remote.store address bytes) node state ∨
      Halts ((Node.remote.disturbed schedule).store address bytes) node state := by
  rcases decided : schedule.onWrite address bytes state with ⟨verdict, later⟩
  cases verdict with
  | pass =>
      refine Or.inl ⟨?_, ?_⟩ <;>
        simp only [Remote.store, Transfer.toEngine, Remote.disturbed, decided]
  | fail fault =>
      refine Or.inr ⟨⟨.fault fault, ?_⟩, ?_⟩ <;>
        simp only [Remote.store, Transfer.toEngine, Remote.disturbed, decided]

theorem store_word_disturbed (address : Nat) (word : UInt32) (node : Node) (state : τ) :
    Agrees ((Node.remote.disturbed schedule).storeWord address word)
        (Node.remote.storeWord address word) node state ∨
      Halts ((Node.remote.disturbed schedule).storeWord address word) node state := by
  unfold Remote.storeWord
  split
  · exact Or.inl ⟨rfl, rfl⟩
  · exact store_disturbed schedule address _ node state

namespace Shadows

/-- A read shadows together with what follows if that refuses the bytes of a read cut short. -/
theorem fetch_bind {address length : Nat} {next' : Bytes → Engine (Node × τ) β}
    {next : Bytes → Engine Node β} (rest : ∀ bytes, Shadows (next' bytes) (next bytes))
    (refuses : ∀ bytes : Bytes, bytes.length < length → Refuses (next' bytes)) :
    Shadows ((Node.remote.disturbed schedule).fetch address length >>= next')
      (Node.remote.fetch address length >>= next) := by
  have takesFetch : Takes (Node.remote.fetch address length) :=
    fun node => ⟨[], fetch_takes_nothing address length node⟩
  have takes := takesFetch.bind fun bytes => (rest bytes).takes
  refine ⟨takes, ?_⟩
  intro node state
  rcases fetch_disturbed schedule address length node state with
    agrees | ⟨nothing, ⟨stop, failed⟩ | ⟨bytes, short, fetched⟩⟩
  · exact follows_of_agrees takesFetch agrees rest
  · have left := Engine.bind_of_error next' failed
    refine Or.inr (breaks_off_at_once takes ⟨stop, left.1⟩ ?_)
    rw [left.2]
    exact nothing
  · have left := Engine.bind_of_ok next' fetched
    obtain ⟨⟨stop, refused⟩, still⟩ := refuses bytes short
      ((Node.remote.disturbed schedule).fetch address length (node, state)).node
    refine Or.inr (breaks_off_at_once takes ⟨stop, by rw [left.1, refused]⟩ ?_)
    rw [left.2, still]
    exact nothing

theorem store (address : Nat) (bytes : Bytes) :
    Shadows ((Node.remote.disturbed schedule).store address bytes)
      (Node.remote.store address bytes) := by
  refine ⟨takes_store address bytes, ?_⟩
  intro node state
  rcases store_disturbed schedule address bytes node state with agrees | halts
  · exact Or.inl agrees
  · refine Or.inr (breaks_off_at_once (takes_store address bytes) halts.result ?_)
    rw [halts.node]
    exact Node.Took.refl node

theorem store_word (address : Nat) (word : UInt32) :
    Shadows ((Node.remote.disturbed schedule).storeWord address word)
      (Node.remote.storeWord address word) := by
  unfold Remote.storeWord
  split
  · exact crash _
  · exact store schedule address _

theorem read_quadlet (index : Nat) :
    Shadows (Rom.readQuadlet (Node.remote.disturbed schedule) index)
      (Rom.readQuadlet Node.remote index) := by
  apply fetch_bind
  · intro bytes
    split
    · exact pure _
    · exact fail _
  · intro bytes short
    rw [if_neg (Nat.ne_of_lt short)]
    exact refuses_fail _

theorem read_identity :
    Shadows (Rom.readIdentity (Node.remote.disturbed schedule)) (Rom.readIdentity Node.remote) := by
  apply (read_quadlet schedule _).bind
  intro vendor
  apply (read_quadlet schedule _).bind
  intro model
  exact pure _

theorem control_block_address :
    Shadows (Rom.controlBlockAddress (Node.remote.disturbed schedule))
      (Rom.controlBlockAddress Node.remote) := by
  apply (read_quadlet schedule _).bind
  intro quadlet
  exact pure _

theorem fetch_control_block (address : Nat) :
    Shadows (ControlBlock.fetch (Node.remote.disturbed schedule) address)
      (ControlBlock.fetch Node.remote address) := by
  apply fetch_bind
  · intro bytes
    cases ControlBlock.ofBytes? bytes with
    | none => exact fail _
    | some block => exact pure block
  · intro bytes short
    rw [ControlBlock.ofBytes?, if_pos short]
    exact refuses_fail _

end Shadows
end Transfers
end RemoteBoot
