import RemoteBoot.Proofs.BusProgram.Answers
import RemoteBoot.Proofs.BusProgram.Reading
import RemoteBoot.Proofs.BusProgram.Writing

/-!
# The calls that an action issues

A state that holds a record of calls grows it while an action runs.  What is added is described by
two properties: one of the calls that may have been made when the action stopped anywhere, and one of
the calls of an action that succeeded.  A transfer makes a front of the calls of its plan, and all of
them if it succeeds.
-/

set_option autoImplicit false

namespace RemoteBoot.BusProgram

theorem front_of_breaks_off {Item : Type} {callOf : Item → Call}
    {succeeds : Item → Except String Completion → Prop} {items : List Item}
    {record : List Exchange} (broken : BreaksOff callOf succeeds items record) :
    record.map Exchange.call <+: items.map callOf := by
  induction broken with
  | here same _ => exact List.cons_prefix_cons.mpr ⟨same, List.nil_prefix⟩
  | later same _ _ ih => exact List.cons_prefix_cons.mpr ⟨same, ih⟩

/-- The spans of a transfer; none if an address of it needs more than 64 bits. -/
def spansOf (settings : BusSettings) (address length : Nat) : List Span :=
  (plan settings.blockSize.toNat address length).toOption.getD []

/-- The calls of a read. -/
def fetchCalls (settings : BusSettings) (address length : Nat) : List Call :=
  (spansOf settings address length).map (readCall settings)

/-- The calls of a write. -/
def storeCalls (settings : BusSettings) (address : Nat) (bytes : Bytes) : List Call :=
  (parcels (spansOf settings address bytes.length) bytes).map (parcelCall settings)

/-- The action adds calls that may be made, and if it succeeds those that have to be. -/
structure Issues {σ α : Type} (recordOf : σ → List Exchange) (action : Engine σ α)
    (may must : List Call → Prop) : Prop where
  own : ∀ kept, ∃ record, recordOf (action kept).node = recordOf kept ++ record ∧
    may (record.map Exchange.call) ∧
      ∀ value, (action kept).result = .ok value → must (record.map Exchange.call)

/-- The action makes a front of the planned calls, and all of them if it succeeds. -/
abbrev Follows {σ α : Type} (recordOf : σ → List Exchange) (action : Engine σ α)
    (planned : List Call) : Prop :=
  Issues recordOf action (· <+: planned) (· = planned)

section Actions

variable {σ τ α β : Type} {recordOf : σ → List Exchange} {first : Engine σ α}
  {next : α → Engine σ β}

namespace Issues

variable {may must later latest all done : List Call → Prop}

theorem bind (begins : Issues recordOf first may must)
    (rest : ∀ value, Issues recordOf (next value) later latest)
    (stopped : ∀ calls, may calls → all calls)
    (went : ∀ calls more, must calls → later more → all (calls ++ more))
    (ended : ∀ calls more, must calls → latest more → done (calls ++ more)) :
    Issues recordOf (first >>= next) all done := by
  constructor
  intro kept
  obtain ⟨record, grown, made, whole⟩ := begins.own kept
  cases reached : (first kept).result with
  | ok value =>
      have left := Engine.bind_of_ok next reached
      obtain ⟨others, further, more, rounded⟩ := (rest value).own (first kept).node
      refine ⟨record ++ others, ?_, ?_, ?_⟩
      · rw [left.2, further, grown, List.append_assoc]
      · rw [List.map_append]
        exact went _ _ (whole value reached) more
      · intro final succeeded
        rw [left.1] at succeeded
        rw [List.map_append]
        exact ended _ _ (whole value reached) (rounded final succeeded)
  | error stop =>
      have left := Engine.bind_of_error next reached
      refine ⟨record, by rw [left.2, grown], stopped _ made, ?_⟩
      intro final succeeded
      rw [left.1] at succeeded
      cases succeeded

/-- An attempt succeeds also where the action was stopped by a fault. -/
theorem attempt (issues : Issues recordOf first may must) :
    Issues recordOf (Engine.attempt first) may may := by
  constructor
  intro kept
  obtain ⟨record, grown, made, _⟩ := issues.own kept
  exact ⟨record, by rw [Engine.node_attempt, grown], made, fun _ _ => made⟩

/-- An action on a part of the state issues the calls that it issues on the part alone. -/
theorem of_part {other : Engine τ α} {partOf : σ → τ} {record : τ → List Exchange}
    (issues : Issues record other may must)
    (tracks : Tracks (fun kept part => partOf kept = part) first other) :
    Issues (fun kept => record (partOf kept)) first may must := by
  constructor
  intro kept
  obtain ⟨calls, grown, made, whole⟩ := issues.own (partOf kept)
  refine ⟨calls, ?_, made, ?_⟩
  · rw [← grown]
    exact congrArg record (tracks.node rfl)
  · intro value succeeded
    exact whole value ((tracks.result rfl).symm.trans succeeded)

end Issues

namespace Follows

variable {planned more : List Call}

/-- An action that leaves the record alone makes no calls. -/
theorem of_silent (silent : ∀ kept, recordOf (first kept).node = recordOf kept) :
    Follows recordOf first [] := by
  constructor
  intro kept
  exact ⟨[], by rw [silent, List.append_nil], List.nil_prefix, fun _ _ => rfl⟩

/-- An action that never succeeds need not go on with what was planned. -/
theorem of_stop (stop : Stop) (planned : List Call) :
    Follows recordOf (Engine.ofChecked (.error stop) : Engine σ α) planned := by
  constructor
  intro kept
  refine ⟨[], (List.append_nil (recordOf kept)).symm, List.nil_prefix, ?_⟩
  intro value succeeded
  cases succeeded

theorem fail (fault : Fault) : Follows recordOf (Engine.fail fault : Engine σ α) [] :=
  of_stop (.fault fault) []

theorem pure (value : α) : Follows recordOf (pure value : Engine σ α) [] :=
  of_silent fun _ => rfl

theorem note (level : Level) (origin : Origin) (text : String) :
    Follows recordOf (Engine.note level origin text : Engine σ Unit) [] :=
  of_silent fun _ => rfl

theorem of_checked (result : Except Stop α) :
    Follows recordOf (Engine.ofChecked result : Engine σ α) [] :=
  of_silent fun _ => rfl

theorem bind (begins : Follows recordOf first planned)
    (rest : ∀ value, Follows recordOf (next value) more) :
    Follows recordOf (first >>= next) (planned ++ more) := by
  apply Issues.bind begins rest
  · intro calls front
    exact front.trans (List.prefix_append planned more)
  · rintro calls others rfl front
    exact (List.prefix_append_right_inj calls).mpr front
  · rintro calls others rfl rfl
    rfl

/-- What follows a silent action makes the calls of the whole. -/
theorem behind_silent (silent : Follows recordOf first [])
    (rest : ∀ value, Follows recordOf (next value) planned) :
    Follows recordOf (first >>= next) planned :=
  silent.bind rest

/-- What precedes a silent action makes the calls of the whole. -/
theorem before_silent (begins : Follows recordOf first planned)
    (silent : ∀ value, Follows recordOf (next value) []) :
    Follows recordOf (first >>= next) planned := by
  rw [← List.append_nil planned]
  exact begins.bind silent

end Follows
end Actions

section Transfers

variable {ρ : Type} (launch : Launcher ρ) (settings : BusSettings)

/-- What one transfer adds to the record of any host. -/
theorem follows_of_transfer {α : Type} {transfer : ρ × List Exchange → Transfer (ρ × List Exchange) α}
    {plain : ρ → Transfer ρ α} {planned : List Call}
    (recorded : ∀ host past, ∃ record, Recorded (transfer (host, past)) (plain host) past record ∧
      record.map Exchange.call <+: planned ∧
        ∀ value, (plain host).result = .ok value → record.map Exchange.call = planned) :
    Follows Prod.snd (Transfer.toEngine transfer) planned := by
  constructor
  rintro ⟨host, past⟩
  obtain ⟨record, made, front, whole⟩ := recorded host past
  refine ⟨record, ?_, front, ?_⟩
  · exact congrArg Prod.snd made.node
  · intro value succeeded
    exact whole value (made.result.symm.trans succeeded)

theorem fetch_recorded (address length : Nat) (host : ρ) (past : List Exchange) :
    ∃ record, Recorded ((remote launch.recorded settings).read address length (host, past))
        ((remote launch settings).read address length host) past record ∧
      record.map Exchange.call <+: fetchCalls settings address length ∧
        ∀ bytes, ((remote launch settings).read address length host).result = .ok bytes →
          record.map Exchange.call = fetchCalls settings address length := by
  rw [fetchCalls, spansOf]
  cases planned : plan settings.blockSize.toNat address length with
  | error stop =>
      refine ⟨[], ?_, List.nil_prefix, fun _ _ => rfl⟩
      rw [read_of_unplanned launch settings planned,
        read_of_unplanned launch.recorded settings planned]
      exact ⟨rfl, by rw [List.append_nil]⟩
  | ok spans =>
      obtain ⟨record, made, ended⟩ := read_spans_recorded launch settings spans host past
      refine ⟨record, ?_, ?_⟩
      · rcases ended with ⟨_, read⟩ | ⟨_, stop, failed⟩
        · constructor <;> simp only [remote, planned, made.result, made.node, read] <;> split <;> rfl
        · constructor <;> simp only [remote, planned, made.result, made.node, failed]
      · rcases ended with ⟨completes, _⟩ | ⟨broken, stop, failed⟩
        · have same := calls_of_completes _ _ completes
          exact ⟨same ▸ List.prefix_rfl, fun _ _ => same⟩
        · refine ⟨front_of_breaks_off broken, ?_⟩
          intro bytes succeeded
          simp only [remote, planned, failed] at succeeded
          cases succeeded

theorem store_recorded (address : Nat) (bytes : Bytes) (host : ρ) (past : List Exchange) :
    ∃ record, Recorded ((remote launch.recorded settings).write address bytes (host, past))
        ((remote launch settings).write address bytes host) past record ∧
      record.map Exchange.call <+: storeCalls settings address bytes ∧
        ∀ value, ((remote launch settings).write address bytes host).result = .ok value →
          record.map Exchange.call = storeCalls settings address bytes := by
  rw [storeCalls, spansOf]
  cases planned : plan settings.blockSize.toNat address bytes.length with
  | error stop =>
      refine ⟨[], ?_, List.nil_prefix, fun _ _ => rfl⟩
      rw [write_of_unplanned launch settings planned,
        write_of_unplanned launch.recorded settings planned]
      exact ⟨rfl, by rw [List.append_nil]⟩
  | ok spans =>
      rw [write_of_planned launch settings planned, write_of_planned launch.recorded settings planned]
      obtain ⟨record, made, ended⟩ := write_spans_recorded launch settings spans bytes host past
      refine ⟨record, made, ?_⟩
      rcases ended with ⟨completes, _⟩ | ⟨broken, stop, failed⟩
      · have same := calls_of_completes _ _ completes
        exact ⟨same ▸ List.prefix_rfl, fun _ _ => same⟩
      · refine ⟨front_of_breaks_off broken, ?_⟩
        intro value succeeded
        rw [failed] at succeeded
        cases succeeded

theorem fetch_follows (address length : Nat) :
    Follows Prod.snd ((remote launch.recorded settings).fetch address length)
      (fetchCalls settings address length) :=
  follows_of_transfer (fetch_recorded launch settings address length)

theorem store_follows (address : Nat) (bytes : Bytes) :
    Follows Prod.snd ((remote launch.recorded settings).store address bytes)
      (storeCalls settings address bytes) :=
  follows_of_transfer (store_recorded launch settings address bytes)

end Transfers
end RemoteBoot.BusProgram
