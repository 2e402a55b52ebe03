import RemoteBoot.Proofs.Remote.Attempts

/-!
# Actions that fail in writes only

Where the writes of an action depend on what it works on, it still matters that nothing but a write
can fail: the action then stops as the last write did that it attempted, and all writes in front of
this one succeeded.
-/

set_option autoImplicit false

namespace RemoteBoot

variable {σ α β : Type}

def Succeeded (attempts : List Attempt) : Prop :=
  ∀ attempt ∈ attempts, attempt.answer = .ok ()

theorem succeeded_nil : Succeeded [] := by
  intro attempt listed
  cases listed

theorem Succeeded.append {attempts others : List Attempt} (first : Succeeded attempts)
    (second : Succeeded others) : Succeeded (attempts ++ others) := by
  intro attempt listed
  rcases List.mem_append.mp listed with front | back
  · exact first attempt front
  · exact second attempt back

/-- The writes that were attempted all succeeded, or the last one failed and what stopped it is the
result. -/
inductive Ends (remote : Remote σ) (allowed : Crash → Prop) :
    List Attempt → Except Stop α → Prop where
  | returned {attempts : List Attempt} (succeeded : Succeeded attempts) (value : α) :
      Ends remote allowed attempts (.ok value)
  | crashed {attempts : List Attempt} (succeeded : Succeeded attempts) {crash : Crash}
      (own : allowed crash) : Ends remote allowed attempts (.error (.crash crash))
  | lost {front : List Attempt} (succeeded : Succeeded front) {write : Write} {stop : Stop}
      (refused : ∃ node, (remote.write write.address write.bytes node).result = .error stop) :
      Ends remote allowed (front ++ [⟨write, .error stop⟩]) (.error stop)

namespace Ends

variable {remote : Remote σ} {allowed : Crash → Prop} {attempts : List Attempt}

theorem succeeded_of_ok {value : α}
    (ends : Ends remote allowed attempts (.ok value : Except Stop α)) : Succeeded attempts := by
  cases ends with
  | returned succeeded => exact succeeded

theorem behind {result : Except Stop α} {front : List Attempt} (succeeded : Succeeded front)
    (ends : Ends remote allowed attempts result) : Ends remote allowed (front ++ attempts) result := by
  cases ends with
  | returned later value => exact .returned (succeeded.append later) value
  | crashed later own => exact .crashed (succeeded.append later) own
  | lost later refused =>
      rw [← List.append_assoc]
      exact .lost (succeeded.append later) refused

theorem stopped {stop : Stop} (ends : Ends remote allowed attempts (.error stop : Except Stop α)) :
    Ends remote allowed attempts (.error stop : Except Stop β) := by
  cases ends with
  | crashed succeeded own => exact .crashed succeeded own
  | lost succeeded refused => exact .lost succeeded refused

theorem in_transport {fault : Fault} (plain : remote.FailsInTransport)
    (ends : Ends remote allowed attempts (.error (.fault fault) : Except Stop α)) :
    fault.InTransport := by
  cases ends with
  | lost succeeded refused =>
      obtain ⟨node, failed⟩ := refused
      exact plain.write _ _ node _ failed

end Ends

/-- The action stops only where a write does, behind which it issues no other, or crashes in an
allowed way. -/
structure FailsInWrites (remote : Remote σ) (allowed : Crash → Prop)
    (action : Engine (σ × List Attempt) α) : Prop where
  own : ∀ node earlier, ∃ attempts, (action (node, earlier)).node.2 = earlier ++ attempts ∧
    Ends remote allowed attempts (action (node, earlier)).result

namespace FailsInWrites

variable {remote : Remote σ} {allowed : Crash → Prop}

theorem pure (value : α) :
    FailsInWrites remote allowed (pure value : Engine (σ × List Attempt) α) :=
  ⟨fun _ earlier => ⟨[], (List.append_nil earlier).symm, .returned succeeded_nil value⟩⟩

theorem note (level : Level) (origin : Origin) (text : String) :
    FailsInWrites remote allowed (Engine.note level origin text) :=
  ⟨fun _ earlier => ⟨[], (List.append_nil earlier).symm, .returned succeeded_nil ()⟩⟩

theorem crash {crash : Crash} (own : allowed crash) :
    FailsInWrites remote allowed (Engine.crash crash : Engine (σ × List Attempt) α) :=
  ⟨fun _ earlier => ⟨[], (List.append_nil earlier).symm, .crashed succeeded_nil own⟩⟩

theorem store (address : Nat) (bytes : Bytes) :
    FailsInWrites remote allowed (remote.attempted.store address bytes) := by
  constructor
  intro node earlier
  simp only [Remote.store, Transfer.toEngine, Remote.attempted]
  cases answered : (remote.write address bytes node).result with
  | ok done =>
      have succeeded : Succeeded [⟨⟨address, bytes⟩, .ok done⟩] := by simp [Succeeded]
      exact ⟨_, rfl, .returned succeeded done⟩
  | error stop => exact ⟨_, rfl, .lost succeeded_nil ⟨node, answered⟩⟩

theorem of_checked {result : Except Stop α}
    (own : ∀ stop, result = .error stop → ∃ crash, stop = .crash crash ∧ allowed crash) :
    FailsInWrites remote allowed (Engine.ofChecked result : Engine (σ × List Attempt) α) := by
  cases result with
  | ok value => exact pure value
  | error stop =>
      obtain ⟨crash, rfl, allowedCrash⟩ := own stop rfl
      exact FailsInWrites.crash allowedCrash

theorem bind {first : Engine (σ × List Attempt) α} {next : α → Engine (σ × List Attempt) β}
    (begins : FailsInWrites remote allowed first)
    (rest : ∀ value, FailsInWrites remote allowed (next value)) :
    FailsInWrites remote allowed (first >>= next) := by
  constructor
  intro node earlier
  obtain ⟨attempts, kept, ends⟩ := begins.own node earlier
  cases reached : (first (node, earlier)).result with
  | ok value =>
      rw [reached] at ends
      obtain ⟨others, more, final⟩ :=
        (rest value).own (first (node, earlier)).node.1 (earlier ++ attempts)
      have left := bind_behind_attempts next kept reached
      rw [left.1, left.2]
      exact ⟨attempts ++ others, by rw [more, List.append_assoc],
        final.behind ends.succeeded_of_ok⟩
  | error stop =>
      rw [reached] at ends
      have left := Engine.bind_of_error next reached
      rw [left.1, left.2]
      exact ⟨attempts, kept, ends.stopped⟩

end FailsInWrites
end RemoteBoot
