import RemoteBoot.Proofs.Node.Transfers
import RemoteBoot.Proofs.Remote.Crashes
import RemoteBoot.Proofs.Remote.Tracking

/-!
# Waiting for the agent

A probe reads the vendor and, only if that came whole, the model.  Waiting probes until both are the
agent's and does nothing else: whatever fails, comes back short or belongs to another node is probed
again, and only a read that crashes ends the wait as well.  On a node that fails a number of reads
first, every lost probe costs one of them, so their number is the number of lost probes.
-/

set_option autoImplicit false

namespace RemoteBoot

variable {σ : Type}

/-- One transfer as it was asked for; of a read also whether it was answered. -/
inductive Access where
  | read (address length : Nat) (answered : Bool)
  | write (write : Write)
  deriving DecidableEq

/-- The remote that also keeps a list of all transfers. -/
def Remote.watched (remote : Remote σ) : Remote (σ × List Access) where
  read address length := fun (node, log) =>
    let left := remote.read address length node
    ⟨left.result, (left.node, log ++ [.read address length left.result.isOk]), left.notes⟩
  write address bytes := fun (node, log) =>
    let left := remote.write address bytes node
    ⟨left.result, (left.node, log ++ [.write ⟨address, bytes⟩]), left.notes⟩

/-- The node of a watched remote is the node of the remote. -/
def Watches (watched : σ × List Access) (node : σ) : Prop :=
  watched.1 = node

theorem watched_reads (remote : Remote σ) : ReadsTrack Watches remote.watched remote := by
  intro address length
  apply Tracks.of_transfer
  rintro ⟨node, log⟩ place rfl
  exact ⟨rfl, rfl⟩

theorem ReadsTrack.wait_for_agent {ρ : Type} {related : σ → ρ → Prop} {remote : Remote σ}
    {other : Remote ρ} (reads : ReadsTrack related remote other) (probes : Nat) :
    Tracks related (Rom.waitForAgent remote probes) (Rom.waitForAgent other probes) := by
  induction probes with
  | zero => exact Tracks.pure none
  | succ probes ih =>
      apply reads.discover.bind
      intro discovery
      split
      · exact Tracks.pure _
      · apply (Tracks.note _ _ _).bind
        intro noted
        exact ih

section Transfers

variable {remote : Remote σ} {address length : Nat} {node : σ}

theorem fetch_of_answer {bytes : Bytes}
    (read : (remote.read address length node).result = .ok bytes) :
    Gives (remote.fetch address length) node bytes (remote.read address length node).node :=
  ⟨read, rfl⟩

end Transfers

namespace Rom

variable (remote : Remote σ)

/-- The quadlet that a read of it brings, if the read comes whole. -/
def quadlet? (index : Nat) (node : σ) : Option UInt32 :=
  match (remote.read (quadletAddress index) 4 node).result with
  | .ok bytes => if bytes.length = 4 then some (Word.ofQuadletBytes bytes) else none
  | .error _ => none

/-- The node after a read of a quadlet. -/
def behind (index : Nat) (node : σ) : σ :=
  (remote.read (quadletAddress index) 4 node).node

/-- What a probe finds on an agent. -/
def agent : Discovery := ⟨agentVendor, agentModel⟩

/-- Both entries can be read, one after the other, and their low bytes are the agent's. -/
def ShowsAgent (node : σ) : Prop :=
  ∃ vendor model, quadlet? remote vendorIndex node = some vendor ∧
    quadlet? remote modelIndex (behind remote vendorIndex node) = some model ∧
      entryValue vendor = agentVendor ∧ entryValue model = agentModel

/-- A read of a quadlet ends with bytes or with a fault. -/
def Returns (index : Nat) (node : σ) : Prop :=
  ∀ crash, (remote.read (quadletAddress index) 4 node).result ≠ .error (.crash crash)

/-- The reads of a probe return; the model is read only if the vendor came whole. -/
structure ProbeReturns (node : σ) : Prop where
  vendor : Returns remote vendorIndex node
  model : quadlet? remote vendorIndex node ≠ none →
    Returns remote modelIndex (behind remote vendorIndex node)

/-- The node after a probe. -/
def probed (node : σ) : σ :=
  if (quadlet? remote vendorIndex node).isSome then
    behind remote modelIndex (behind remote vendorIndex node)
  else behind remote vendorIndex node

/-- After so many probes in vain the next one shows the agent and leaves a last node. -/
inductive Finds : Nat → σ → σ → Prop where
  | now {node : σ} (shows : ShowsAgent remote node) : Finds 0 node (probed remote node)
  | later {lost : Nat} {node last : σ} (hidden : ¬ ShowsAgent remote node)
      (returns : ProbeReturns remote node) (rest : Finds lost (probed remote node) last) :
      Finds (lost + 1) node last

/-- What a reader of a quadlet makes of the bytes that came. -/
def wholeQuadlet (index : Nat) (bytes : Bytes) : Engine σ UInt32 :=
  if bytes.length = 4 then pure (Word.ofQuadletBytes bytes)
  else Engine.fail (.shortTransfer "read" (quadletAddress index) 4 bytes.length)

theorem read_quadlet_eq (index : Nat) :
    readQuadlet remote index = remote.fetch (quadletAddress index) 4 >>= wholeQuadlet index := rfl

variable {remote}

theorem read_quadlet_of_whole {index : Nat} {node : σ} {quadlet : UInt32}
    (read : quadlet? remote index node = some quadlet) :
    Gives (readQuadlet remote index) node quadlet (behind remote index node) := by
  rw [quadlet?] at read
  cases fetched : (remote.read (quadletAddress index) 4 node).result with
  | error fault =>
      rw [fetched] at read
      cases read
  | ok bytes =>
      simp only [fetched, Option.ite_none_right_eq_some, Option.some.injEq] at read
      obtain ⟨whole, rfl⟩ := read
      rw [read_quadlet_eq]
      apply (fetch_of_answer fetched).bind
      rw [wholeQuadlet, if_pos whole]
      exact Gives.pure _ _

/-- A read that crashes is no quadlet. -/
theorem returns_of_whole {index : Nat} {node : σ} {quadlet : UInt32}
    (read : quadlet? remote index node = some quadlet) : Returns remote index node := by
  intro crash crashed
  rw [quadlet?, crashed] at read
  cases read

theorem read_quadlet_of_lost {index : Nat} {node : σ} (lost : quadlet? remote index node = none)
    (returns : Returns remote index node) :
    (∃ fault, (readQuadlet remote index node).result = .error (.fault fault)) ∧
      (readQuadlet remote index node).node = behind remote index node := by
  rw [quadlet?] at lost
  rw [read_quadlet_eq]
  rcases fetched : (remote.read (quadletAddress index) 4 node).result with (fault | crash) | bytes
  · have failed : (remote.fetch (quadletAddress index) 4 node).result = .error (.fault fault) :=
      fetched
    have stopped := Engine.bind_of_error (wholeQuadlet index) failed
    exact ⟨⟨fault, stopped.1⟩, stopped.2⟩
  · exact absurd fetched (returns crash)
  ·
      simp only [fetched, ite_eq_right_iff, reduceCtorEq, imp_false] at lost
      have left := fetch_of_answer fetched
      have checked := Engine.bind_of_ok (wholeQuadlet index) left.result
      rw [wholeQuadlet, if_neg lost, left.node] at checked
      exact ⟨⟨_, checked.1⟩, checked.2⟩

theorem gives_discover {node after : σ} {discovery : Discovery}
    (read : Gives (readIdentity remote) node discovery after) :
    Gives (discover remote) node discovery after :=
  read.attempt.bind (Gives.pure discovery after)

/-- A probe that failed anywhere finds nothing. -/
theorem gives_discover_of_fault {node after : σ}
    (failed : ∃ fault, (readIdentity remote node).result = .error (.fault fault))
    (left : (readIdentity remote node).node = after) :
    Gives (discover remote) node ⟨0, 0⟩ after := by
  obtain ⟨fault, failed⟩ := failed
  rw [← left]
  apply (Gives.attempt_of_fault failed).bind
  exact (Gives.note _ _ _ _).bind (Gives.pure _ _)

/-- What a reader of the identity does behind the vendor. -/
def readModel (remote : Remote σ) (vendor : UInt32) : Engine σ Discovery := do
  let model ← readQuadlet remote modelIndex
  pure ⟨entryValue vendor, entryValue model⟩

theorem read_identity_eq (remote : Remote σ) :
    readIdentity remote = readQuadlet remote vendorIndex >>= readModel remote := rfl

theorem read_identity_of_whole {node : σ} {vendor model : UInt32}
    (first : quadlet? remote vendorIndex node = some vendor)
    (second : quadlet? remote modelIndex (behind remote vendorIndex node) = some model) :
    Gives (readIdentity remote) node ⟨entryValue vendor, entryValue model⟩ (probed remote node) := by
  have left : probed remote node = behind remote modelIndex (behind remote vendorIndex node) := by
    rw [probed, first]
    rfl
  rw [left, read_identity_eq]
  exact (read_quadlet_of_whole first).bind ((read_quadlet_of_whole second).bind (Gives.pure _ _))

theorem read_identity_of_lost {node : σ} (returns : ProbeReturns remote node)
    (lost : ∀ vendor, quadlet? remote vendorIndex node = some vendor →
      quadlet? remote modelIndex (behind remote vendorIndex node) = none) :
    (∃ fault, (readIdentity remote node).result = .error (.fault fault)) ∧
      (readIdentity remote node).node = probed remote node := by
  rw [read_identity_eq, probed]
  cases first : quadlet? remote vendorIndex node with
  | none =>
      obtain ⟨⟨fault, failed⟩, left⟩ := read_quadlet_of_lost first returns.vendor
      have stopped := Engine.bind_of_error (readModel remote) failed
      exact ⟨⟨fault, stopped.1⟩, stopped.2.trans left⟩
  | some vendor =>
      have came : quadlet? remote vendorIndex node ≠ none := by simp [first]
      obtain ⟨⟨fault, failed⟩, left⟩ :=
        read_quadlet_of_lost (lost vendor first) (returns.model came)
      have read := read_quadlet_of_whole first
      have begun := Engine.bind_of_ok (readModel remote) read.result
      have stopped := Engine.bind_of_error (fun model =>
        (pure ⟨entryValue vendor, entryValue model⟩ : Engine σ Discovery)) failed
      rw [read.node] at begun
      exact ⟨⟨fault, begun.1.trans stopped.1⟩, begun.2.trans (stopped.2.trans left)⟩

/-- The two quadlets decide whether a probe shows the agent. -/
theorem shows_agent_iff {node : σ} {vendor model : UInt32}
    (first : quadlet? remote vendorIndex node = some vendor)
    (second : quadlet? remote modelIndex (behind remote vendorIndex node) = some model) :
    ShowsAgent remote node ↔ (⟨entryValue vendor, entryValue model⟩ : Discovery).isAgent = true := by
  rw [Discovery.isAgent, Bool.and_eq_true, beq_iff_eq, beq_iff_eq]
  constructor
  · rintro ⟨other, another, sameFirst, sameSecond, ours⟩
    cases first.symm.trans sameFirst
    cases second.symm.trans sameSecond
    exact ours
  · intro ours
    exact ⟨vendor, model, first, second, ours⟩

theorem gives_discover_of_lost {node : σ} (returns : ProbeReturns remote node)
    (lost : ∀ vendor, quadlet? remote vendorIndex node = some vendor →
      quadlet? remote modelIndex (behind remote vendorIndex node) = none) :
    ¬ ShowsAgent remote node ∧ Gives (discover remote) node ⟨0, 0⟩ (probed remote node) := by
  obtain ⟨failed, left⟩ := read_identity_of_lost returns lost
  refine ⟨?_, gives_discover_of_fault failed left⟩
  rintro ⟨vendor, model, first, second, _⟩
  cases (lost vendor first).symm.trans second

theorem agent_of_is_agent {discovery : Discovery} (found : discovery.isAgent = true) :
    discovery = agent := by
  rw [Discovery.isAgent, Bool.and_eq_true, beq_iff_eq, beq_iff_eq] at found
  rcases discovery with ⟨vendor, model⟩
  rw [agent, ← found.1, ← found.2]

theorem ShowsAgent.returns {node : σ} (shows : ShowsAgent remote node) :
    ProbeReturns remote node := by
  obtain ⟨vendor, model, first, second, _⟩ := shows
  exact ⟨returns_of_whole first, fun _ => returns_of_whole second⟩

/-- A probe that returns gives an agent exactly if the node shows one. -/
theorem discover_spec {node : σ} (returns : ProbeReturns remote node) :
    ∃ discovery, Gives (discover remote) node discovery (probed remote node) ∧
      (discovery.isAgent = true ↔ ShowsAgent remote node) := by
  cases first : quadlet? remote vendorIndex node with
  | none =>
      obtain ⟨hidden, given⟩ := gives_discover_of_lost returns fun vendor read => by
        rw [first] at read
        cases read
      exact ⟨_, given, iff_of_false Bool.false_ne_true hidden⟩
  | some vendor =>
      cases second : quadlet? remote modelIndex (behind remote vendorIndex node) with
      | none =>
          obtain ⟨hidden, given⟩ := gives_discover_of_lost returns fun _ _ => second
          exact ⟨_, given, iff_of_false Bool.false_ne_true hidden⟩
      | some model =>
          exact ⟨_, gives_discover (read_identity_of_whole first second),
            (shows_agent_iff first second).symm⟩

/-- A read that crashes is not taken for a node without an agent. -/
theorem discover_of_broken {node : σ} (broken : ¬ ProbeReturns remote node) :
    ∃ crash, (discover remote node).result = .error (.crash crash) := by
  have crashed : ∀ {index : Nat} {place : σ}, ¬ Returns remote index place →
      ∃ crash, (readQuadlet remote index place).result = .error (.crash crash) := by
    intro index place stuck
    simp only [Returns, Classical.not_forall, Classical.not_not] at stuck
    obtain ⟨crash, read⟩ := stuck
    have failed : (remote.fetch (quadletAddress index) 4 place).result = .error (.crash crash) := read
    rw [read_quadlet_eq]
    exact ⟨crash, (Engine.bind_of_error (wholeQuadlet index) failed).1⟩
  have identity : ∃ crash, (readIdentity remote node).result = .error (.crash crash) := by
    rw [read_identity_eq]
    by_cases first : Returns remote vendorIndex node
    · have second : ¬ (quadlet? remote vendorIndex node ≠ none →
          Returns remote modelIndex (behind remote vendorIndex node)) :=
        fun model => broken ⟨first, model⟩
      simp only [Classical.not_imp] at second
      obtain ⟨came, stuck⟩ := second
      obtain ⟨vendor, read⟩ := Option.ne_none_iff_exists'.mp came
      obtain ⟨crash, failed⟩ := crashed stuck
      have whole := read_quadlet_of_whole read
      have begun := Engine.bind_of_ok (readModel remote) whole.result
      rw [whole.node] at begun
      exact ⟨crash, begun.1.trans (Engine.bind_of_error _ failed).1⟩
    · obtain ⟨crash, failed⟩ := crashed first
      exact ⟨crash, (Engine.bind_of_error (readModel remote) failed).1⟩
  obtain ⟨crash, failed⟩ := identity
  have attempted : (Engine.attempt (readIdentity remote) node).result = .error (.crash crash) := by
    rw [Engine.result_attempt, failed]
  exact ⟨crash, (Engine.bind_of_error _ attempted).1⟩

theorem wait_of_broken {node : σ} (broken : ¬ ProbeReturns remote node) (probes : Nat) :
    ∃ crash, (waitForAgent remote (probes + 1) node).result = .error (.crash crash) := by
  obtain ⟨crash, failed⟩ := discover_of_broken broken
  exact ⟨crash, (Engine.bind_of_error _ failed).1⟩

/-- A probe that shows the agent ends the wait. -/
theorem wait_of_shown {node : σ} (shows : ShowsAgent remote node) (probes : Nat) :
    Gives (waitForAgent remote (probes + 1)) node (some agent) (probed remote node) := by
  obtain ⟨discovery, given, found⟩ := discover_spec shows.returns
  have ours := found.mpr shows
  obtain rfl := agent_of_is_agent ours
  apply given.bind
  rw [if_pos ours]
  exact Gives.pure _ _

/-- A probe in vain leaves the wait to the remaining probes. -/
theorem wait_of_hidden {node : σ} (hidden : ¬ ShowsAgent remote node)
    (returns : ProbeReturns remote node) (probes : Nat) :
    (waitForAgent remote (probes + 1) node).result =
        (waitForAgent remote probes (probed remote node)).result ∧
      (waitForAgent remote (probes + 1) node).node =
        (waitForAgent remote probes (probed remote node)).node := by
  obtain ⟨discovery, given, found⟩ := discover_spec returns
  have begun := Engine.bind_of_ok (fun discovery =>
    if discovery.isAgent then pure (some discovery)
    else do
      Engine.note .debug .rom
        ("no agent yet (vendor " ++ Numeral.paddedHex 8 discovery.vendor.toNat ++ ", model "
          ++ Numeral.paddedHex 8 discovery.model.toNat ++ ")")
      waitForAgent remote probes) given.result
  rw [given.node, if_neg (fun ours => hidden (found.mp ours))] at begun
  exact begun

/-- The number of probes in vain and the last node are determined by the node. -/
theorem Finds.unique {lost other : Nat} {node last final : σ} (finds : Finds remote lost node last)
    (others : Finds remote other node final) : lost = other ∧ last = final := by
  induction finds generalizing other with
  | now shows =>
      cases others with
      | now _ => exact ⟨rfl, rfl⟩
      | later hidden _ _ => exact absurd shows hidden
  | later hidden _ _ ih =>
      cases others with
      | now shows => exact absurd shows hidden
      | later _ _ rest =>
          obtain ⟨same, left⟩ := ih rest
          exact ⟨congrArg (· + 1) same, left⟩

theorem wait_of_finds {lost : Nat} {node last : σ} (finds : Finds remote lost node last)
    {probes : Nat} (enough : lost < probes) :
    Gives (waitForAgent remote probes) node (some agent) last := by
  induction finds generalizing probes with
  | now shows =>
      obtain ⟨more, rfl⟩ := Nat.exists_eq_succ_of_ne_zero (Nat.ne_of_gt enough)
      exact wait_of_shown shows more
  | later hidden returns _ ih =>
      obtain ⟨more, rfl⟩ := Nat.exists_eq_succ_of_ne_zero (Nat.ne_zero_of_lt enough)
      have same := wait_of_hidden hidden returns more
      have rest := ih (Nat.lt_of_succ_lt_succ enough)
      exact ⟨same.1.trans rest.result, same.2.trans rest.node⟩

/-- A wait that ends without an agent: all its probes were in vain, or a read crashed. -/
def EndsWithout (result : Except Stop (Option Discovery)) : Prop :=
  result = .ok none ∨ ∃ crash, result = .error (.crash crash)

/-- What a wait ends with: the agent, if one of the probes shows it, and else nothing. -/
theorem wait_spec (probes : Nat) (node : σ) :
    (∃ lost last, lost < probes ∧ Finds remote lost node last) ∨
      (∀ lost last, Finds remote lost node last → probes ≤ lost) ∧
        EndsWithout (waitForAgent remote probes node).result := by
  induction probes generalizing node with
  | zero => exact Or.inr ⟨fun lost _ _ => Nat.zero_le lost, Or.inl rfl⟩
  | succ probes ih =>
      by_cases returns : ProbeReturns remote node
      · by_cases shows : ShowsAgent remote node
        · exact Or.inl ⟨0, _, Nat.succ_pos probes, .now shows⟩
        · have same := (wait_of_hidden shows returns probes).1
          rcases ih (probed remote node) with ⟨lost, last, within, finds⟩ | ⟨late, nothing⟩
          · exact Or.inl ⟨lost + 1, last, Nat.succ_lt_succ within, .later shows returns finds⟩
          · refine Or.inr ⟨?_, by rw [same]; exact nothing⟩
            intro lost last finds
            cases finds with
            | now shown => exact absurd shown shows
            | later _ _ rest => exact Nat.succ_le_succ (late _ _ rest)
      · refine Or.inr ⟨?_, Or.inr (wait_of_broken returns probes)⟩
        intro lost last finds
        cases finds with
        | now shown => exact absurd shown.returns returns
        | later _ back _ => exact absurd back returns

theorem wait_iff (probes : Nat) (node : σ) (discovery : Discovery) (last : σ) :
    Gives (waitForAgent remote probes) node (some discovery) last ↔
      discovery = agent ∧ ∃ lost, lost < probes ∧ Finds remote lost node last := by
  constructor
  · intro waited
    rcases wait_spec probes node with ⟨lost, final, within, finds⟩ | ⟨_, nothing⟩
    · have given := wait_of_finds finds within
      obtain rfl : last = final := waited.node.symm.trans given.node
      cases waited.result.symm.trans given.result
      exact ⟨rfl, lost, within, finds⟩
    · rcases nothing with missed | ⟨crash, crashed⟩
      · cases waited.result.symm.trans missed
      · cases waited.result.symm.trans crashed
  · rintro ⟨rfl, lost, within, finds⟩
    exact wait_of_finds finds within

/-- So many next reads fail, whatever they ask for, and then the node shows the agent. -/
def Awakens (remote : Remote σ) : Nat → σ → Prop
  | 0, node => ShowsAgent remote node
  | lost + 1, node => ∀ address length,
    (∃ fault, (remote.read address length node).result = .error (.fault fault)) ∧
      Awakens remote lost (remote.read address length node).node

/-- A failing read costs the whole probe. -/
theorem Awakens.lost {lost : Nat} {node : σ} (awakens : Awakens remote (lost + 1) node) :
    (quadlet? remote vendorIndex node = none ∧ ¬ ShowsAgent remote node ∧
      ProbeReturns remote node) ∧
      probed remote node = behind remote vendorIndex node ∧
        Awakens remote lost (probed remote node) := by
  obtain ⟨⟨fault, failed⟩, later⟩ := awakens (quadletAddress vendorIndex) 4
  have first : quadlet? remote vendorIndex node = none := by
    rw [quadlet?, failed]
  have left : probed remote node = behind remote vendorIndex node := by
    rw [probed, first]
    rfl
  refine ⟨⟨first, ?_, ?_⟩, left, ?_⟩
  · rintro ⟨vendor, _, read, _⟩
    cases first.symm.trans read
  · constructor
    · intro crash crashed
      cases failed.symm.trans crashed
    · exact fun came => absurd first came
  · rw [left]
    exact later

theorem Awakens.finds {lost : Nat} {node : σ} (awakens : Awakens remote lost node) :
    ∃ last, Finds remote lost node last := by
  induction lost generalizing node with
  | zero => exact ⟨_, .now awakens⟩
  | succ lost ih =>
      obtain ⟨⟨_, hidden, returns⟩, _, later⟩ := awakens.lost
      obtain ⟨last, finds⟩ := ih later
      exact ⟨last, .later hidden returns finds⟩

/-- As long as reads fail the wait goes on. -/
theorem Awakens.wait_none {lost probes : Nat} {node : σ} (awakens : Awakens remote lost node)
    (enough : probes ≤ lost) : (waitForAgent remote probes node).result = .ok none := by
  induction probes generalizing lost node with
  | zero => rfl
  | succ probes ih =>
      obtain ⟨left, rfl⟩ := Nat.exists_eq_succ_of_ne_zero (Nat.ne_zero_of_lt enough)
      obtain ⟨⟨_, hidden, returns⟩, _, later⟩ := awakens.lost
      rw [(wait_of_hidden hidden returns probes).1]
      exact ih later (Nat.le_of_succ_le_succ enough)

/-- A read of the vendor that fails. -/
def lostRead : Access := .read (quadletAddress vendorIndex) 4 false

/-- The reads of a probe that comes whole. -/
def wholeReads : List Access :=
  [.read (quadletAddress vendorIndex) 4 true, .read (quadletAddress modelIndex) 4 true]

theorem probed_watched_of_lost {lost : Nat} {node : σ} (awakens : Awakens remote (lost + 1) node)
    (log : List Access) :
    probed remote.watched (node, log) = (probed remote node, log ++ [lostRead]) := by
  obtain ⟨⟨fault, failed⟩, _⟩ := awakens (quadletAddress vendorIndex) 4
  obtain ⟨⟨first, _⟩, left, _⟩ := awakens.lost
  have watched : quadlet? remote.watched vendorIndex (node, log) = none := first
  rw [left, probed, watched]
  change (_, log ++ [Access.read _ 4 (remote.read (quadletAddress vendorIndex) 4 node).result.isOk])
    = _
  rw [failed]
  rfl

/-- A read that came whole was answered. -/
theorem answered_of_whole {index : Nat} {node : σ} {quadlet : UInt32}
    (read : quadlet? remote index node = some quadlet) :
    (remote.read (quadletAddress index) 4 node).result.isOk = true := by
  rw [quadlet?] at read
  cases fetched : (remote.read (quadletAddress index) 4 node).result with
  | error fault =>
      rw [fetched] at read
      cases read
  | ok bytes => rfl

theorem probed_watched_of_shown {node : σ} (shows : ShowsAgent remote node) (log : List Access) :
    probed remote.watched (node, log) = (probed remote node, log ++ wholeReads) := by
  obtain ⟨vendor, model, first, second, _⟩ := shows
  have watched : quadlet? remote.watched vendorIndex (node, log) = some vendor := first
  rw [probed, probed, watched, first]
  change (_, (log ++ [Access.read _ 4 (remote.read (quadletAddress vendorIndex) 4 node).result.isOk])
    ++ [Access.read _ 4 (remote.read (quadletAddress modelIndex) 4
      (behind remote vendorIndex node)).result.isOk]) = _
  rw [answered_of_whole first, answered_of_whole second, List.append_assoc]
  rfl

theorem log_of_wait {lost : Nat} {node : σ} (awakens : Awakens remote lost node) (probes : Nat)
    (log : List Access) :
    (waitForAgent remote.watched probes (node, log)).node.2 =
      log ++ if probes ≤ lost then List.replicate probes lostRead
        else List.replicate lost lostRead ++ wholeReads := by
  induction probes generalizing lost node log with
  | zero => exact (List.append_nil log).symm
  | succ probes ih =>
      cases lost with
      | zero =>
          have shows : ShowsAgent remote.watched (node, log) := awakens
          rw [(wait_of_shown shows probes).node, probed_watched_of_shown awakens]
          rfl
      | succ lost =>
          obtain ⟨⟨_, hidden, returns⟩, _, later⟩ := awakens.lost
          have watched : ¬ ShowsAgent remote.watched (node, log) := hidden
          have back : ProbeReturns remote.watched (node, log) := ⟨returns.vendor, returns.model⟩
          rw [(wait_of_hidden watched back probes).2, probed_watched_of_lost awakens, ih later,
            List.append_assoc]
          simp only [Nat.add_le_add_iff_right, List.replicate_succ]
          split <;> rfl

/-- Nothing but reads was asked for. -/
def OnlyReads (watched : σ × List Access) : Prop :=
  ∀ write, Access.write write ∉ watched.2

theorem only_reads_fetch (address length : Nat) (watched : σ × List Access)
    (quiet : OnlyReads watched) : OnlyReads (remote.watched.fetch address length watched).node := by
  have grown : (remote.watched.fetch address length watched).node.2 =
      watched.2 ++ [.read address length (remote.read address length watched.1).result.isOk] := by
    rfl
  intro write asked
  rw [grown, List.mem_append, List.mem_singleton] at asked
  rcases asked with earlier | now
  · exact quiet write earlier
  · cases now

theorem wait_trips {allowed : Crash → Prop} (smooth : remote.CrashesIn allowed) (probes : Nat) :
    Trips allowed (waitForAgent remote probes) := by
  induction probes with
  | zero => exact Trips.pure none
  | succ probes ih =>
      apply smooth.discover.bind
      intro discovery
      split
      · exact Trips.pure _
      · apply (Trips.note _ _ _).bind
        intro noted
        exact ih

theorem wait_only_reads (probes : Nat) (node : σ) :
    OnlyReads (waitForAgent remote.watched probes (node, [])).node :=
  ((reads_keeping only_reads_fetch).wait_for_agent probes).keeps fun _ => List.not_mem_nil

end Rom

open Rom

/-- A node that fails so many reads first and then shows the agent is waited for with one probe more
than that, each of the others costs one failing read, and nothing else is asked of it.  In general
a wait ends at the first probe whose two entries are the agent's, and at no other one; it writes
nothing, and nothing but a read that crashes stops it. -/
theorem waiting_ends_at_first_agent (remote : Remote σ) :
    (∀ lost node, Awakens remote lost node → ∃ last, Finds remote lost node last ∧
      (∀ probes, probes ≤ lost →
        (waitForAgent remote probes node).result = .ok none ∧
          (waitForAgent remote.watched probes (node, [])).node.2 =
            List.replicate probes lostRead) ∧
      ∀ probes, lost < probes →
        Gives (waitForAgent remote probes) node (some agent) last ∧
          (waitForAgent remote.watched probes (node, [])).node.2 =
            List.replicate lost lostRead ++ wholeReads) ∧
    (∀ probes node discovery last, Gives (waitForAgent remote probes) node (some discovery) last ↔
      discovery = agent ∧ ∃ lost, lost < probes ∧ Finds remote lost node last) ∧
    (∀ probes node, ((∃ found, (waitForAgent remote probes node).result = .ok found) ∨
        ∃ crash, (waitForAgent remote probes node).result = .error (.crash crash)) ∧
      (remote.CrashesIn (fun _ => False) →
        ∃ found, (waitForAgent remote probes node).result = .ok found) ∧
      Watches (waitForAgent remote.watched probes (node, [])).node
        (waitForAgent remote probes node).node ∧
      OnlyReads (waitForAgent remote.watched probes (node, [])).node) ∧
    agent.isAgent = true := by
  refine ⟨?_, wait_iff, ?_, rfl⟩
  · intro lost node awakens
    obtain ⟨last, finds⟩ := awakens.finds
    refine ⟨last, finds, ?_, ?_⟩ <;> intro probes enough
    · refine ⟨awakens.wait_none enough, ?_⟩
      rw [log_of_wait awakens, if_pos enough, List.nil_append]
    · refine ⟨wait_of_finds finds enough, ?_⟩
      rw [log_of_wait awakens, if_neg (Nat.not_le.mpr enough), List.nil_append]
  · intro probes node
    have ended : (∃ found, (waitForAgent remote probes node).result = .ok found) ∨
        ∃ crash, (waitForAgent remote probes node).result = .error (.crash crash) := by
      rcases wait_spec probes node with ⟨_, _, within, finds⟩ | ⟨_, missed | crashed⟩
      · exact Or.inl ⟨_, (wait_of_finds finds within).result⟩
      · exact Or.inl ⟨none, missed⟩
      · exact Or.inr crashed
    refine ⟨ended, ?_, ((watched_reads remote).wait_for_agent probes).node rfl,
      wait_only_reads probes node⟩
    intro smooth
    refine ended.resolve_right ?_
    rintro ⟨crash, crashed⟩
    exact (wait_trips smooth probes).own node crash crashed

/-- A node in memory that carries the agent's ids, whatever their high bytes, behind a number of
reads that fail. -/
theorem awakens_of_failing_reads {node : Node} (present : node.absent = false)
    (vendor : entryValue (node.memory.quadlet vendorIndex) = agentVendor)
    (model : entryValue (node.memory.quadlet modelIndex) = agentModel) (lost : Nat) :
    Awakens (Node.remote.disturbed FaultPlan.schedule) lost (node, { failingReads := lost }) := by
  induction lost with
  | zero =>
      have read (reads index : Nat) : quadlet? (Node.remote.disturbed FaultPlan.schedule) index
          ({ node with reads }, {}) = some (node.memory.quadlet index) := by
        simp only [quadlet?, Remote.disturbed, FaultPlan.schedule, FaultPlan.onRead, Node.remote,
          Node.read, present, List.not_mem_nil, if_false, List.lookup_nil, Bool.false_eq_true,
          Memory.length_peek, if_true]
        rfl
      have left : behind (Node.remote.disturbed FaultPlan.schedule) vendorIndex (node, {}) =
          ({ node with reads := node.reads + 1 }, {}) := by
        simp only [behind, Remote.disturbed, FaultPlan.schedule, FaultPlan.onRead, Node.remote,
          Node.read, present, List.not_mem_nil, if_false, List.lookup_nil, Bool.false_eq_true]
      exact ⟨_, _, read node.reads vendorIndex, left ▸ read (node.reads + 1) modelIndex, vendor,
        model⟩
  | succ lost ih => exact fun address length => ⟨⟨_, rfl⟩, ih⟩

/-- A node that comes up late, with ids that have other high bytes than an agent writes. -/
def lateNode : Node :=
  (({} : Node).seedQuadlet vendorIndex 0xffcaffee).seedQuadlet modelIndex 0xab000002

theorem late_node_is_found :
    ∃ last, Gives (waitForAgent (Node.remote.disturbed FaultPlan.schedule) 10)
        (lateNode, { failingReads := 3 }) (some agent) last ∧
      Finds (Node.remote.disturbed FaultPlan.schedule) 3 (lateNode, { failingReads := 3 }) last ∧
      (waitForAgent (Node.remote.disturbed FaultPlan.schedule) 3
        (lateNode, { failingReads := 3 })).result = .ok none := by
  obtain ⟨awake, ends, _⟩ := waiting_ends_at_first_agent (Node.remote.disturbed FaultPlan.schedule)
  have late : Awakens (Node.remote.disturbed FaultPlan.schedule) 3
      (lateNode, { failingReads := 3 }) :=
    awakens_of_failing_reads rfl (by decide +kernel) (by decide +kernel) 3
  obtain ⟨last, finds, before, behind⟩ := awake 3 _ late
  exact ⟨last, (behind 10 (by decide)).1, finds, (before 3 (by decide)).1⟩

end RemoteBoot
