import RemoteBoot.Remote.Engine

/-!
# Laws of actions

A sequence of two actions succeeds when both succeed, and a stopped action stops the whole.  Actions
form a lawful monad, so a long sequence may be cut in two at any step.
-/

set_option autoImplicit false

namespace RemoteBoot

theorem ok_of_to_option {ε α : Type} {result : Except ε α} {value : α}
    (reached : result.toOption = some value) : result = .ok value := by
  cases result with
  | error stop => cases reached
  | ok other =>
      cases reached
      rfl

theorem ok_of_bind_ok {ε α β : Type} {first : Except ε α} {next : α → Except ε β} {value : β}
    (done : (first >>= next) = .ok value) : ∃ middle, first = .ok middle ∧ next middle = .ok value := by
  cases first with
  | error stop => cases done
  | ok middle => exact ⟨middle, rfl, done⟩

theorem error_of_bind_error {ε α β : Type} {first : Except ε α} {next : α → Except ε β} {stop : ε}
    (failed : (first >>= next) = .error stop) :
    first = .error stop ∨ ∃ middle, first = .ok middle ∧ next middle = .error stop := by
  cases first with
  | error other =>
      cases failed
      exact Or.inl rfl
  | ok middle => exact Or.inr ⟨middle, rfl, failed⟩

theorem ok_of_lift {α : Type} {result : Except Fault α} {value : α}
    (lifted : Stop.lift result = .ok value) : result = .ok value := by
  cases result with
  | error fault => cases lifted
  | ok other =>
      cases lifted
      rfl

theorem lift_bind {α β : Type} (first : Except Fault α) (next : α → Except Fault β) :
    Stop.lift (first >>= next) = (Stop.lift first >>= fun value => Stop.lift (next value)) := by
  cases first <;> rfl

theorem error_of_lift {α : Type} {result : Except Fault α} {stop : Stop}
    (lifted : Stop.lift result = .error stop) : ∃ fault, stop = .fault fault ∧ result = .error fault := by
  cases result with
  | error fault =>
      cases lifted
      exact ⟨fault, rfl, rfl⟩
  | ok other => cases lifted

theorem error_of_to_option {ε α : Type} {result : Except ε α} (nothing : result.toOption = none) :
    ∃ stop, result = .error stop := by
  cases result with
  | error stop => exact ⟨stop, rfl⟩
  | ok value => cases nothing

/-- The fault that a result stopped with. -/
def fault? {α : Type} : Except Stop α → Option Fault
  | .error (.fault fault) => some fault
  | _ => none

theorem error_of_fault {α : Type} {result : Except Stop α} {fault : Fault}
    (stopped : fault? result = some fault) : result = .error (.fault fault) := by
  rcases result with (other | crash) | value
  · cases stopped
    rfl
  · cases stopped
  · cases stopped

/-- The crash that a result stopped with. -/
def crash? {α : Type} : Except Stop α → Option Crash
  | .error (.crash crash) => some crash
  | _ => none

theorem crash_eq_some_iff {α : Type} {result : Except Stop α} {crash : Crash} :
    crash? result = some crash ↔ result = .error (.crash crash) := by
  rcases result with (fault | other) | value <;> simp [crash?]

namespace Engine

variable {σ α β γ : Type}

theorem bind_of_ok {first : Engine σ α} {node : σ} {value : α} (next : α → Engine σ β)
    (reached : (first node).result = .ok value) :
    ((first >>= next) node).result = (next value (first node).node).result ∧
      ((first >>= next) node).node = (next value (first node).node).node := by
  rw [bind_apply]
  simp only [reached, and_self]

theorem bind_of_error {first : Engine σ α} {node : σ} {stop : Stop} (next : α → Engine σ β)
    (stopped : (first node).result = .error stop) :
    ((first >>= next) node).result = .error stop ∧
      ((first >>= next) node).node = (first node).node := by
  rw [bind_apply]
  simp only [stopped, and_self]

theorem ok_of_bind {first : Engine σ α} {next : α → Engine σ β} {node : σ} {value : β}
    (done : ((first >>= next) node).result = .ok value) :
    ∃ middle, (first node).result = .ok middle ∧
      (next middle (first node).node).result = .ok value ∧
      ((first >>= next) node).node = (next middle (first node).node).node := by
  cases reached : (first node).result with
  | ok middle =>
      have rest := bind_of_ok next reached
      exact ⟨middle, rfl, by rw [← rest.1, done], rest.2⟩
  | error stop =>
      have rest := bind_of_error next reached
      rw [rest.1] at done
      cases done

theorem bind_pure_apply (action : Engine σ α) (give : α → β) (node : σ) :
    (action >>= fun value => pure (give value)) node =
      ⟨(action node).result.map give, (action node).node, (action node).notes⟩ := by
  rw [bind_apply]
  cases (action node).result with
  | error stop => rfl
  | ok value => simp only [pure_apply, Except.map, List.append_nil]

theorem map_id_action (action : Engine σ α) : id <$> action = action := by
  funext node
  change (action >>= fun value => pure (id value)) node = action node
  rw [bind_apply]
  cases reached : (action node).result <;> simp only [pure_apply, id_eq, List.append_nil] <;>
    rw [← reached]

theorem pure_bind_action (value : α) (next : α → Engine σ β) : (pure value >>= next) = next value := by
  funext node
  rw [bind_apply]
  simp only [pure_apply, List.nil_append]

theorem bind_assoc_action (first : Engine σ α) (second : α → Engine σ β) (third : β → Engine σ γ) :
    (first >>= second >>= third) = (first >>= fun value => second value >>= third) := by
  funext node
  rw [bind_apply, bind_apply, bind_apply]
  cases reached : (first node).result with
  | error stop => simp only
  | ok value =>
      simp only [bind_apply]
      cases (second value (first node).node).result with
      | error stop => simp only
      | ok other => simp only [List.append_assoc]

instance : LawfulMonad (Engine σ) :=
  LawfulMonad.mk' (Engine σ) map_id_action pure_bind_action bind_assoc_action

@[simp]
theorem of_except_ok (value : α) : (ofExcept (.ok value) : Engine σ α) = pure value := rfl

@[simp]
theorem of_except_error (fault : Fault) : (ofExcept (.error fault) : Engine σ α) = fail fault := rfl

@[simp]
theorem of_checked_ok (value : α) : (ofChecked (.ok value) : Engine σ α) = pure value := rfl

/-- What stopped a calculation stops the sequence that it begins. -/
theorem of_checked_error_bind (stop : Stop) (next : α → Engine σ β) :
    ((ofChecked (.error stop) : Engine σ α) >>= next) = ofChecked (.error stop) := rfl

@[simp]
theorem of_checked_crash (crash : Crash) :
    (ofChecked (.error (.crash crash)) : Engine σ α) = Engine.crash crash := rfl

@[simp]
theorem fail_bind (fault : Fault) (next : α → Engine σ β) :
    ((fail fault : Engine σ α) >>= next) = fail fault := rfl

@[simp]
theorem crash_bind (crash : Crash) (next : α → Engine σ β) :
    ((Engine.crash crash : Engine σ α) >>= next) = Engine.crash crash := rfl

/-- An action that does not use what it looked at need not look. -/
theorem look_bind_const (action : Engine σ α) : (look >>= fun _ => action) = action := by
  funext node
  rw [bind_apply]
  simp only [look, List.nil_append]

theorem node_attempt (action : Engine σ α) (node : σ) :
    (attempt action node).node = (action node).node := by
  rw [attempt]
  rcases (action node).result with (fault | crash) | value <;> rfl

theorem result_attempt (action : Engine σ α) (node : σ) :
    (attempt action node).result =
      match (action node).result with
      | .ok value => .ok (.ok value)
      | .error (.fault fault) => .ok (.error fault)
      | .error (.crash crash) => .error (.crash crash) := by
  rw [attempt]
  rcases (action node).result with (fault | crash) | value <;> rfl

end Engine

variable {σ α β : Type}

/-- From one node the action returns a value and leaves another node. -/
structure Gives (action : Engine σ α) (before : σ) (value : α) (after : σ) : Prop where
  result : (action before).result = .ok value
  node : (action before).node = after

namespace Gives

variable {before after : σ}

theorem of_bind {first : Engine σ α} {next : α → Engine σ β} {value : β}
    (gives : Gives (first >>= next) before value after) :
    ∃ middle between, Gives first before middle between ∧ Gives (next middle) between value after := by
  obtain ⟨middle, begun, done, left⟩ := Engine.ok_of_bind gives.result
  exact ⟨middle, _, ⟨begun, rfl⟩, done, left.symm.trans gives.node⟩

theorem of_pure {given value : α} (gives : Gives (pure given : Engine σ α) before value after) :
    given = value ∧ before = after :=
  ⟨Except.ok.inj gives.result, gives.node⟩

theorem of_note {level : Level} {origin : Origin} {text : String} {value : Unit}
    (gives : Gives (Engine.note level origin text) before value after) : before = after :=
  gives.node

theorem of_except {result : Except Fault α} {value : α}
    (gives : Gives (Engine.ofExcept result) before value after) :
    result = .ok value ∧ before = after := by
  cases result with
  | ok given =>
      obtain ⟨rfl, rfl⟩ := of_pure gives
      exact ⟨rfl, rfl⟩
  | error fault => cases gives.result

theorem of_noted {computation : Noted α} {value : α}
    (gives : Gives (Engine.ofNoted computation) before value after) :
    computation.result = .ok value ∧ before = after :=
  ⟨gives.result, gives.node⟩

theorem of_attempt {action : Engine σ α} {value : α}
    (gives : Gives (Engine.attempt action) before (.ok value) after) :
    Gives action before value after := by
  constructor
  · have tried := gives.result
    rw [Engine.result_attempt] at tried
    rcases result : (action before).result with (fault | crash) | other <;>
      simp only [result] at tried <;> cases tried
    rfl
  · rw [← Engine.node_attempt, gives.node]

protected theorem bind {first : Engine σ α} {next : α → Engine σ β} {middle : α} {between : σ}
    {value : β} (begun : Gives first before middle between)
    (rest : Gives (next middle) between value after) :
    Gives (first >>= next) before value after := by
  have left := Engine.bind_of_ok next begun.result
  rw [begun.node, rest.result, rest.node] at left
  exact ⟨left.1, left.2⟩

protected theorem pure (value : α) (node : σ) : Gives (pure value : Engine σ α) node value node :=
  ⟨rfl, rfl⟩

theorem note (level : Level) (origin : Origin) (text : String) (node : σ) :
    Gives (Engine.note level origin text) node () node :=
  ⟨rfl, rfl⟩

theorem attempt {action : Engine σ α} {value : α} (gives : Gives action before value after) :
    Gives (Engine.attempt action) before (.ok value) after := by
  constructor
  · rw [Engine.result_attempt, gives.result]
  · rw [Engine.node_attempt, gives.node]

/-- An attempt hands over the fault that stopped the action. -/
theorem attempt_of_fault {action : Engine σ α} {fault : Fault}
    (failed : (action before).result = .error (.fault fault)) :
    Gives (Engine.attempt action) before (.error fault) (action before).node := by
  constructor
  · rw [Engine.result_attempt, failed]
  · exact Engine.node_attempt action before

end Gives

end RemoteBoot
