import RemoteBoot.Proofs.BusProgram.Faults

/-!
# The calls that a transfer makes

A recorded host keeps every call of the bus program with its answer.  A transfer makes its planned
calls in order and goes on as long as they succeed: the record holds one exchange for each planned
call, or it ends with the first one that failed.
-/

set_option autoImplicit false

namespace RemoteBoot

theorem transport_of_in_transport {fault : Fault} (own : fault.InTransport) :
    ∃ command diagnostic, fault = .transport command diagnostic := by
  cases fault
  case transport command diagnostic => exact ⟨command, diagnostic, rfl⟩
  all_goals cases own

namespace BusProgram

structure Exchange where
  call : Call
  answer : Except String Completion

/-- What the program printed, if it ran. -/
def Exchange.output (exchange : Exchange) : Bytes :=
  match exchange.answer with
  | .ok completion => completion.output
  | .error _ => []

namespace Launcher

variable {ρ : Type}

def exchange (launch : Launcher ρ) (call : Call) (host : ρ) : Exchange :=
  ⟨call, (launch call host).1⟩

/-- A host that also keeps a list of all calls with their answers. -/
def recorded (launch : Launcher ρ) : Launcher (ρ × List Exchange) := fun call (host, record) =>
  ((launch call host).1, (launch call host).2, record ++ [launch.exchange call host])

end Launcher

def readCall (settings : BusSettings) (span : Span) : Call :=
  ⟨settings.program, arguments settings.node .read span, []⟩

def writeCall (settings : BusSettings) (span : Span) (chunk : Bytes) : Call :=
  ⟨settings.program, arguments settings.node .write span, chunk⟩

/-- The program started and exited with zero. -/
structure Succeeded (answer : Except String Completion) (completion : Completion) : Prop where
  started : answer = .ok completion
  success : completion.ending.isSuccess = true

theorem Succeeded.unique {answer : Except String Completion} {first second : Completion}
    (one : Succeeded answer first) (two : Succeeded answer second) : first = second :=
  Except.ok.inj (one.started.symm.trans two.started)

/-- The program printed the bytes of a span and no more. -/
def Delivers (span : Span) (answer : Except String Completion) : Prop :=
  ∃ completion, Succeeded answer completion ∧ completion.output.length = span.length

/-- The program succeeded and its input could be fed to the end. -/
def Takes (answer : Except String Completion) : Prop :=
  ∃ completion, Succeeded answer completion ∧ completion.unfed = none

section Records

variable {Item : Type} (callOf : Item → Call) (succeeds : Item → Except String Completion → Prop)

/-- Every planned call was made, in order, and succeeded. -/
inductive Completes : List Item → List Exchange → Prop
  | done : Completes [] []
  | next {item : Item} {exchange : Exchange} {items : List Item} {record : List Exchange} :
      exchange.call = callOf item → succeeds item exchange.answer → Completes items record →
      Completes (item :: items) (exchange :: record)

/-- Planned calls were made in order up to the first one that failed. -/
inductive BreaksOff : List Item → List Exchange → Prop
  | here {item : Item} {exchange : Exchange} {items : List Item} :
      exchange.call = callOf item → ¬ succeeds item exchange.answer →
      BreaksOff (item :: items) [exchange]
  | later {item : Item} {exchange : Exchange} {items : List Item} {record : List Exchange} :
      exchange.call = callOf item → succeeds item exchange.answer → BreaksOff items record →
      BreaksOff (item :: items) (exchange :: record)

/-- The calls of a full record are the planned ones. -/
theorem calls_of_completes {items : List Item} {record : List Exchange}
    (completes : Completes callOf succeeds items record) :
    record.map Exchange.call = items.map callOf := by
  induction completes with
  | done => rfl
  | next same _ _ ih => rw [List.map_cons, List.map_cons, same, ih]

end Records

variable {ρ : Type} (launch : Launcher ρ) (settings : BusSettings)

/-- What a transfer did on a recorded host: it did as without the record, and the record grew by
some exchanges. -/
structure Recorded {α : Type} (left : Transfer (ρ × List Exchange) α) (plain : Transfer ρ α)
    (past record : List Exchange) : Prop where
  result : left.result = plain.result
  node : left.node = (plain.node, past ++ record)

theorem run_recorded (direction : Direction) (span : Span) (input : Bytes) (host : ρ)
    (past : List Exchange) :
    let call : Call := ⟨settings.program, arguments settings.node direction span, input⟩
    Recorded (run launch.recorded settings direction span input (host, past))
      (run launch settings direction span input host) past [launch.exchange call host] := by
  intro call
  rcases answered : launch call host with ⟨reason | completion, after⟩
  · constructor <;> simp only [run, Launcher.recorded, answered, call]
  · constructor <;> simp only [run, Launcher.recorded, answered, call] <;> split <;> rfl

theorem run_ok_iff (direction : Direction) (span : Span) (input : Bytes) (host : ρ)
    (completion : Completion) :
    (run launch settings direction span input host).result = .ok completion ↔
      Succeeded (launch ⟨settings.program, arguments settings.node direction span, input⟩ host).1
        completion := by
  rcases answered : launch ⟨settings.program, arguments settings.node direction span, input⟩ host
    with ⟨reason | other, after⟩
  · simp only [run, answered, reduceCtorEq, false_iff]
    rintro ⟨started, _⟩
    cases started
  · simp only [run, answered]
    split
    · next success =>
        simp only [Except.ok.injEq]
        constructor
        · rintro rfl
          exact ⟨rfl, success⟩
        · rintro ⟨started, _⟩
          exact Except.ok.inj started
    · next failure =>
        simp only [reduceCtorEq, false_iff]
        rintro ⟨started, success⟩
        cases started
        exact failure success

section Turns

variable {Item β : Type}

/-- Steps for items in turn, as long as they succeed. -/
def inTurn {τ : Type} (step : Item → τ → Transfer τ β) : List Item → τ → Transfer τ (List β)
  | [], host => ⟨.ok [], host, []⟩
  | item :: items, host =>
    let first := step item host
    match first.result with
    | .error fault => ⟨.error fault, first.node, first.notes⟩
    | .ok value =>
      let others := inTurn step items first.node
      ⟨others.result.map (value :: ·), others.node, first.notes ++ others.notes⟩

theorem in_turn_recorded {plain : Item → ρ → Transfer ρ β}
    {kept : Item → ρ × List Exchange → Transfer (ρ × List Exchange) β} {callOf : Item → Call}
    {succeeds : Item → Except String Completion → Prop} (valueOf : Exchange → β)
    (recorded : ∀ item host past, Recorded (kept item (host, past)) (plain item host) past
      [launch.exchange (callOf item) host])
    (judged : ∀ item host, succeeds item (launch.exchange (callOf item) host).answer ↔
      ∃ value, (plain item host).result = .ok value)
    (valued : ∀ item host value, (plain item host).result = .ok value →
      valueOf (launch.exchange (callOf item) host) = value)
    (items : List Item) (host : ρ) (past : List Exchange) :
    ∃ record, Recorded (inTurn kept items (host, past)) (inTurn plain items host) past record ∧
      ((Completes callOf succeeds items record ∧
          (inTurn plain items host).result = .ok (record.map valueOf)) ∨
        (BreaksOff callOf succeeds items record ∧
          ∃ fault, (inTurn plain items host).result = .error fault)) := by
  -- The record of the first step is past when the others start, so the past is any list.
  induction items generalizing host past with
  | nil => exact ⟨[], ⟨rfl, by simp [inTurn]⟩, Or.inl ⟨Completes.done, rfl⟩⟩
  | cons item items ih =>
      have first := recorded item host past
      cases outcome : (plain item host).result with
      | error fault =>
          have failed : ¬ succeeds item (launch.exchange (callOf item) host).answer := by
            rw [judged, outcome]
            rintro ⟨value, succeeded⟩
            cases succeeded
          refine ⟨_, ?_, Or.inr ⟨BreaksOff.here rfl failed, fault, ?_⟩⟩
          · constructor <;> simp only [inTurn, first.result, first.node, outcome]
          · simp only [inTurn, outcome]
      | ok value =>
          have succeeded := (judged item host).mpr ⟨value, outcome⟩
          obtain ⟨record, rest, ended⟩ := ih (plain item host).node
            (past ++ [launch.exchange (callOf item) host])
          refine ⟨launch.exchange (callOf item) host :: record, ?_, ?_⟩
          · constructor <;> simp only [inTurn, first.result, first.node, outcome, rest.result,
              rest.node, List.append_assoc, List.singleton_append]
          · simp only [inTurn, outcome]
            rcases ended with ⟨completes, values⟩ | ⟨broken, fault, failed⟩
            · refine Or.inl ⟨Completes.next rfl succeeded completes, ?_⟩
              rw [values, Except.map, List.map_cons, valued item host value outcome]
            · refine Or.inr ⟨BreaksOff.later rfl succeeded broken, fault, ?_⟩
              rw [failed, Except.map]

end Turns

end BusProgram
end RemoteBoot
