import RemoteBoot.Proofs.Boot.Disturbance
import RemoteBoot.Proofs.Boot.Tracking
import RemoteBoot.Proofs.Multiboot.Atomicity

/-!
# Checks in front of the first write

A session checks identity, control block and the complete manifest, and only then transfers.  So a
session that issues a write has passed every check, and one that is refused has issued none: what
the checks report is never reported behind a transfer.
-/

set_option autoImplicit false

namespace RemoteBoot.Boot

open Multiboot Held

variable {σ : Type}

section Check

variable (remote : Remote σ) (source : FileSource) (manifest root : Path) (cursor : Nat)

/-- A session in front of the first transfer that could be a write. -/
def check : Engine σ (Loader × List Manifest.Entry) := do
  let loader ← prepare remote cursor
  let entries ← Engine.ofNoted (Manifest.parse source manifest root)
  Engine.note .debug .session (Numeral.decimal entries.length ++ " manifest entries")
  pure (loader, entries)

def fulfil (checked : Loader × List Manifest.Entry) : Engine σ Report := do
  let loader ← placeAll remote (fun _ => source) checked.1 checked.2
  let armed ← loader.arm remote
  pure ⟨armed.controlBlock, armed.modules⟩

theorem run_eq_check_fulfil :
    run remote source manifest root cursor = (do
      let checked ← check remote source manifest root cursor
      fulfil remote source checked) := by
  simp only [run_eq_load_arm, load, check, fulfil, bind_assoc, pure_bind]

end Check

theorem check_tracks {ρ : Type} {related : σ → ρ → Prop} {remote : Remote σ} {other : Remote ρ}
    (reads : ReadsTrack related remote other) (source : FileSource) (manifest root : Path)
    (cursor : Nat) :
    Tracks related (check remote source manifest root cursor)
      (check other source manifest root cursor) := by
  apply (prepare_tracks reads cursor).bind
  intro loader
  apply (Tracks.of_noted _).bind
  intro entries
  apply (Tracks.note _ _ _).bind
  intro noted
  exact Tracks.pure _

/-- The reads of the checks one after another: both entries of the agent's identity, the address of
its control block, and the control block, which lists no modules. -/
inductive Cleared (remote : Remote σ) (node : σ) : Prop where
  | reads {vendor model address : UInt32} {block : ControlBlock} {second third fourth last : σ}
      (vendorRead : Gives (Rom.readQuadlet remote Rom.vendorIndex) node vendor second)
      (ours : Rom.entryValue vendor = Rom.agentVendor)
      (modelRead : Gives (Rom.readQuadlet remote Rom.modelIndex) second model third)
      (agent : Rom.entryValue model = Rom.agentModel)
      (addressRead : Gives (Rom.readQuadlet remote Rom.controlBlockIndex) third address fourth)
      (published : address ≠ 0)
      (blockRead : Gives (ControlBlock.fetch remote address.toNat) fourth block last)
      (unbooted : block.modsCount = 0)

section Inversion

variable {remote : Remote σ} {before after : σ}

/-- A probe finds an agent only by reading its identity; a failed probe finds none. -/
theorem identity_of_agent {discovery : Rom.Discovery} (agent : discovery.isAgent = true)
    (probed : Gives (Rom.discover remote) before discovery after) :
    Gives (Rom.readIdentity remote) before discovery after := by
  obtain ⟨attempted, between, tried, rest⟩ := probed.of_bind
  cases attempted with
  | ok found =>
      obtain ⟨rfl, rfl⟩ := rest.of_pure
      exact tried.of_attempt
  | error fault =>
      -- Both ids are given as 0 here, and those are not the agent's.
      obtain ⟨_, _, _, returned⟩ := rest.of_bind
      obtain ⟨rfl, _⟩ := returned.of_pure
      cases agent

theorem agent_of_ensured {discovery ensured : Rom.Discovery}
    (assured : discovery.ensureAgent = .ok ensured) : discovery.isAgent = true := by
  by_cases agent : discovery.isAgent = true
  · exact agent
  · rw [Rom.Discovery.ensureAgent, if_neg agent] at assured
    cases assured

theorem cleared_of_prepared {cursor : Nat} {loader : Loader}
    (prepared : Gives (prepare remote cursor) before loader after) :
    Cleared remote before ∧ loader.phase = .idle := by
  obtain ⟨discovery, third, probed, checked⟩ := prepared.of_bind
  obtain ⟨_, _, ensured, located⟩ := checked.of_bind
  obtain ⟨assured, rfl⟩ := ensured.of_except
  have agent := agent_of_ensured assured
  obtain ⟨vendor, second, vendorRead, identified⟩ := (identity_of_agent agent probed).of_bind
  obtain ⟨model, _, modelRead, returned⟩ := identified.of_bind
  obtain ⟨rfl, rfl⟩ := returned.of_pure
  obtain ⟨_, fourth, addressed, announced⟩ := located.of_bind
  obtain ⟨address, _, addressRead, returned⟩ := addressed.of_bind
  obtain ⟨rfl, rfl⟩ := returned.of_pure
  obtain ⟨_, _, noted, begun⟩ := announced.of_bind
  cases noted.of_note
  obtain ⟨rfl, published, block, fetched, unbooted⟩ := begin_ok begun.result
  simp only [Rom.Discovery.isAgent, Bool.and_eq_true, beq_iff_eq] at agent
  refine ⟨.reads vendorRead agent.1 modelRead agent.2 addressRead ?_ ⟨fetched, rfl⟩ unbooted, rfl⟩
  rintro rfl
  exact published rfl

theorem parsed_of_checked {source : FileSource} {manifest root : Path} {cursor : Nat}
    {loader : Loader} {entries : List Manifest.Entry}
    (checked : Gives (check remote source manifest root cursor) before (loader, entries) after) :
    (∃ between, Gives (prepare remote cursor) before loader between) ∧
      (Manifest.parse source manifest root).result = .ok entries := by
  obtain ⟨loader, between, prepared, rest⟩ := checked.of_bind
  obtain ⟨entries, _, parsed, rest⟩ := rest.of_bind
  obtain ⟨_, _, _, returned⟩ := rest.of_bind
  cases returned.of_pure.1
  exact ⟨⟨between, prepared⟩, parsed.of_noted.1⟩

end Inversion

/-- What refuses a boot: a node that is not ready, a manifest that is wrong, or one that names no
file.  A file that cannot be read is no such refusal: files are read between the writes. -/
inductive Refusal : Fault → Prop where
  | notAgent (vendor model : UInt32) : Refusal (.notAgent vendor model)
  | magicMissing : Refusal .magicMissing
  | alreadyBooted (modules : UInt32) : Refusal (.alreadyBooted modules)
  | includeCycle (file again : Path) : Refusal (.manifest file (.includeCycle again))
  | invalidAddress (file : Path) (text : Text) : Refusal (.manifest file (.invalidAddress text))
  | noModules : Refusal .noModules

section Refused

variable {remote : Remote σ} (plain : remote.FailsInTransport)

include plain

/-- Of all requests only one to arm a loader without modules is refused in this way. -/
theorem idle_of_refusal {loader : Loader} (request : Request) {node : σ} {fault : Fault}
    (refusal : Refusal fault)
    (failed : (carryOut remote loader request node).result = .error (.fault fault)) :
    request = .arm ∧ loader.phase = .idle := by
  have asked : (perform remote request ⟨node, loader⟩).result = .error (.fault fault) := by
    rw [result_perform, failed]
    rfl
  have other : ¬ fault.InTransport := by
    intro retryable
    cases refusal <;> cases retryable
  cases grounds_of_failed plain other asked with
  | idle idle => exact ⟨rfl, idle⟩
  | armed armed => cases refusal
  | start unarmed payload commandLine large => cases refusal
  | stop unarmed payload commandLine fits large => cases refusal
  | block pushing address large => cases refusal

theorem carried_never_refuses (loader : Loader) (request : Request) (other : request ≠ .arm) :
    Blames (fun fault => ¬ Refusal fault) (carryOut remote loader request) := by
  constructor
  intro node fault failed refusal
  exact other (idle_of_refusal plain request refusal failed).1

theorem place_never_refuses (source : FileSource) (loader : Loader) (entry : Manifest.Entry) :
    Blames (fun fault => ¬ Refusal fault) (place remote (fun _ => source) loader entry) := by
  cases entry with
  | address address =>
      have carried := carried_never_refuses plain loader (.setAddress address) Request.noConfusion
      exact carried.of_bind
  | load file commandLine =>
      simp only [place, Engine.look_bind_const]
      cases source.read file with
      | error failure =>
          apply Blames.fail
          intro refusal
          cases refusal
      | ok payload =>
          have carried := carried_never_refuses plain loader (.push payload commandLine)
            Request.noConfusion
          exact carried.of_bind.bind fun _ => Blames.pure _

theorem place_all_never_refuses (source : FileSource) (loader : Loader)
    (entries : List Manifest.Entry) :
    Blames (fun fault => ¬ Refusal fault) (placeAll remote (fun _ => source) loader entries) := by
  induction entries generalizing loader with
  | nil => exact Blames.pure loader
  | cons entry entries ih =>
      apply (place_never_refuses plain source loader entry).bind
      intro placed
      exact ih placed

end Refused

section Idle

variable {remote : Remote σ} {source : FileSource} {loader after : Loader} {before left : σ}

/-- A step of a manifest leaves a loader with modules, or makes no transfer. -/
theorem place_idle {entry : Manifest.Entry}
    (placed : Gives (place remote (fun _ => source) loader entry) before after left) :
    after.phase = .pushing ∨ after.phase = loader.phase ∧ left = before := by
  cases entry with
  | address address =>
      obtain ⟨_, _, opened, rest⟩ := placed.of_bind
      obtain ⟨_, rfl⟩ := opened.of_except
      obtain ⟨_, _, noted, returned⟩ := rest.of_bind
      cases noted.of_note
      obtain ⟨rfl, rfl⟩ := returned.of_pure
      exact Or.inr ⟨rfl, rfl⟩
  | load file commandLine =>
      simp only [place, Engine.look_bind_const] at placed
      cases read : source.read file with
      | error failure =>
          rw [read] at placed
          cases placed.result
      | ok payload =>
          rw [read] at placed
          obtain ⟨⟨pushed, module⟩, _, pushes, returned⟩ := placed.of_bind
          obtain ⟨rfl, _⟩ := returned.of_pure
          have carried : (carryOut remote loader (.push payload commandLine) before).result =
              .ok (pushed, .pushed module) := by
            rw [carry_out_push]
            simp only [pushes.result]
            rfl
          cases moves_of_ok carried
          exact Or.inl rfl

theorem place_all_idle {entries : List Manifest.Entry}
    (placed : Gives (placeAll remote (fun _ => source) loader entries) before after left) :
    after.phase = .pushing ∨ after.phase = loader.phase ∧ left = before := by
  induction entries generalizing loader before with
  | nil =>
      obtain ⟨rfl, rfl⟩ := placed.of_pure
      exact Or.inr ⟨rfl, rfl⟩
  | cons entry entries ih =>
      -- A loader that ends idle was idle at every step, so no step made a transfer.
      obtain ⟨middle, between, first, rest⟩ := placed.of_bind
      rcases ih rest with pushing | ⟨same, rfl⟩
      · exact Or.inl pushing
      · rw [same]
        exact place_idle first

end Idle

/-- Behind the checks a session is refused only for want of modules, and then it made no transfer. -/
theorem node_of_refused {remote : Remote σ} (plain : remote.FailsInTransport) (source : FileSource)
    (checked : Loader × List Manifest.Entry) {node : σ} {fault : Fault} (refusal : Refusal fault)
    (refused : (fulfil remote source checked node).result = .error (.fault fault)) :
    (fulfil remote source checked node).node = node := by
  cases placed : (placeAll remote (fun _ => source) checked.1 checked.2 node).result with
  | error stop =>
      rw [fulfil, (Engine.bind_of_error _ placed).1] at refused
      cases refused
      exact absurd refusal
        ((place_all_never_refuses plain source checked.1 checked.2).own node fault placed)
  | ok loader =>
      have rest := Engine.bind_of_ok (fun loader => do
        let armed ← loader.arm remote
        pure (⟨armed.controlBlock, armed.modules⟩ : Report)) placed
      rw [fulfil, rest.1, Engine.bind_pure_apply] at refused
      rw [fulfil, rest.2, Engine.bind_pure_apply]
      cases ended : (loader.arm remote
          (placeAll remote (fun _ => source) checked.1 checked.2 node).node).result with
      | ok armed =>
          simp only [ended] at refused
          cases refused
      | error stop =>
          simp only [ended] at refused
          cases refused
          have carried := (Engine.bind_of_error
            (fun armed => (pure (armed, Reply.armed) : Engine σ _)) ended).1
          have idle := (idle_of_refusal plain .arm refusal carried).2
          rcases place_all_idle ⟨placed, rfl⟩ with pushing | ⟨_, still⟩
          · rw [idle] at pushing
            cases pushing
          · rw [Loader.arm, idle]
            exact still

section Untouched

variable {remote : Remote σ} {property : σ → Prop} (source : FileSource) (manifest root : Path)
  (cursor : Nat) {node : σ}

/-- A session passes its checks, or does nothing but read. -/
theorem untouched_or_checked
    (kept : ∀ address length place, property place →
      property (remote.fetch address length place).node) (holds : property node) :
    property (run remote source manifest root cursor node).node ∨
      ∃ loader entries after,
        Gives (check remote source manifest root cursor) node (loader, entries) after := by
  rw [run_eq_check_fulfil]
  cases checked : (check remote source manifest root cursor node).result with
  | error stop =>
      rw [(Engine.bind_of_error _ checked).2]
      exact Or.inl ((check_tracks (reads_keeping kept) source manifest root cursor).keeps holds)
  | ok value => exact Or.inr ⟨value.1, value.2, _, checked, rfl⟩

theorem untouched_of_refusal (plain : remote.FailsInTransport)
    (kept : ∀ address length place, property place →
      property (remote.fetch address length place).node) (holds : property node) {fault : Fault}
    (refusal : Refusal fault)
    (refused : (run remote source manifest root cursor node).result = .error (.fault fault)) :
    property (run remote source manifest root cursor node).node := by
  have read : property (check remote source manifest root cursor node).node :=
    (check_tracks (reads_keeping kept) source manifest root cursor).keeps holds
  rw [run_eq_check_fulfil] at refused ⊢
  cases checked : (check remote source manifest root cursor node).result with
  | error stop =>
      rw [(Engine.bind_of_error _ checked).2]
      exact read
  | ok value =>
      have rest := Engine.bind_of_ok (fulfil remote source) checked
      rw [rest.1] at refused
      rw [rest.2, node_of_refused plain source value refusal refused]
      exact read

end Untouched

theorem reading_takes_nothing {τ : Type} (schedule : Schedule τ) (node : Node)
    (address length : Nat) (place : Node × τ) (untouched : node.Took [] place.1) :
    node.Took [] ((Node.remote.disturbed schedule).fetch address length place).node.1 := by
  rcases fetch_disturbed schedule address length place.1 place.2 with agrees | ⟨nothing, _⟩
  · rw [agrees.node]
    exact untouched.trans (fetch_takes_nothing address length place.1)
  · exact untouched.trans nothing

/-- Whoever gets through the checks on a disturbed node has read what the node holds. -/
theorem awaits_of_prepared {τ : Type} {schedule : Schedule τ} {cursor : Nat} {node : Node} {state : τ}
    {loader : Loader}
    (prepared : (prepare (Node.remote.disturbed schedule) cursor (node, state)).result =
      .ok loader) : Awaits node := by
  rcases (prepare_shadows schedule cursor).follows node state with agrees | broken
  · by_cases awaits : Awaits node
    · exact awaits
    · obtain ⟨stop, stopped⟩ := (prepare_stops awaits cursor).result
      rw [← agrees.result, prepared] at stopped
      cases stopped
  · obtain ⟨stop, stopped⟩ := broken.result
    rw [prepared] at stopped
    cases stopped

/-- No write is issued before every check has passed, so a session that is refused leaves the node
as it was.  The writes that count are all that were issued, also those that failed. -/
theorem checks_precede_writes {τ : Type} (schedule : Schedule τ) (node : Node) (state : τ)
    (source : FileSource) (manifest root : Path) (cursor : Nat) :
    let remote := Node.remote.disturbed schedule
    let left := run remote source manifest root cursor (node, state)
    let recorded := run remote.recorded source manifest root cursor ((node, state), [])
    (recorded.result = left.result ∧ recorded.node.1 = left.node) ∧
      (recorded.node.2 ≠ [] → Cleared remote (node, state) ∧ Awaits node ∧
        ∃ entries, (Manifest.parse source manifest root).result = .ok entries) ∧
      (schedule.FailsInTransport → ∀ fault, left.result = .error (.fault fault) → Refusal fault →
        recorded.node.2 = [] ∧ left.node.1.memory = node.memory ∧
          left.node.1.writes = node.writes) := by
  intro remote left recorded
  have same := run_recorded remote source manifest root cursor (node, state) []
  refine ⟨same, ?_, ?_⟩
  · intro issued
    rcases untouched_or_checked source manifest root cursor (recorded_reads_are_silent remote)
      (silent_begin (node, state)) with silent | ⟨loader, entries, after, checked⟩
    · exact absurd silent issued
    · obtain ⟨⟨between, prepared⟩, parsed⟩ := parsed_of_checked checked
      have tracks := prepare_tracks (recorded_reads remote) cursor
      have returned : (prepare remote cursor (node, state)).result = .ok loader :=
        (tracks.result (records_at (node, state) [])).symm.trans prepared.result
      exact ⟨(cleared_of_prepared ⟨returned, rfl⟩).1, awaits_of_prepared returned, entries, parsed⟩
  · intro faults fault refused refusal
    have plain : remote.FailsInTransport := disturbed_fails_in_transport node_fails_in_transport faults
    have silent := untouched_of_refusal source manifest root cursor
      (recorded_fails_in_transport plain) (recorded_reads_are_silent remote)
      (silent_begin (node, state)) refusal (same.1.trans refused)
    have still := untouched_of_refusal source manifest root cursor plain
      (reading_takes_nothing schedule node) (Node.Took.refl node) refusal refused
    exact ⟨silent, still.unchanged, by rw [still.log, List.append_nil]⟩

/-- Three manifests, one inside another; the last line of the innermost is given. -/
def nested (line : String) : FileSource :=
  (MemoryFiles.ofList [
    (.ofString "/boot/a.conf", Utf8.encode "load k one\nconf b.conf\n".toList),
    (.ofString "/boot/b.conf", Utf8.encode "load k two\nconf c.conf\n".toList),
    (.ofString "/boot/c.conf", Utf8.encode ("load k three\n" ++ line).toList),
    (.ofString "/boot/k", [1, 2, 3])]).source

/-- A boot from these manifests, with its writes recorded, where the second file is lost. -/
def nestedRun (line : String) : Outcome ((Node × FaultPlan) × List Write) Report :=
  run (Node.remote.disturbed FaultPlan.schedule).recorded (nested line) (.ofString "a.conf")
    (.ofString "/boot") 0x1000000 ((Node.withAgent 0x9f000, { writeFaults := [0x1001000] }), [])

/-- The last line of the innermost manifest decides whether there is any write. -/
theorem last_line_decides :
    ((nestedRun "addr 200000").node.2 = [⟨0x1000000, [1, 2, 3]⟩, ⟨0x1001000, [1, 2, 3]⟩] ∧
      Awaits (Node.withAgent 0x9f000)) ∧
    (nestedRun "addr zz").node.2 = [] ∧
      (nestedRun "addr zz").node.1.1.memory = (Node.withAgent 0x9f000).memory := by
  have checks := fun line => checks_precede_writes FaultPlan.schedule (Node.withAgent 0x9f000)
    { writeFaults := [0x1001000] } (nested line) (.ofString "a.conf") (.ofString "/boot") 0x1000000
  have issued : (nestedRun "addr 200000").node.2 =
      [⟨0x1000000, [1, 2, 3]⟩, ⟨0x1001000, [1, 2, 3]⟩] := by decide +kernel
  have awaits := ((checks "addr 200000").2.1 (by decide +kernel)).2.1
  have refused := (checks "addr zz").2.2 fault_plan_fails_in_transport
    (.manifest (.ofString "/boot/c.conf") (.invalidAddress "zz".toList))
    (error_of_fault (by decide +kernel)) (.invalidAddress _ _)
  refine ⟨⟨issued, awaits⟩, refused.1, ?_⟩
  rw [nestedRun, (checks "addr zz").1.2]
  exact refused.2.1

end RemoteBoot.Boot
