import RemoteBoot.BusProgram.Transport
import RemoteBoot.Proofs.BusProgram.Splitting
import RemoteBoot.Proofs.Remote.Crashes
import RemoteBoot.Proofs.Remote.Faults

/-!
# The faults of the bus program

Whatever the program does, and whether it can be started at all, a transfer through it fails with a
transport fault.  It crashes only at an address that 64 bits cannot hold, and then makes no call.
-/

set_option autoImplicit false

namespace RemoteBoot

/-- The stop is a fault of a transfer. -/
def Stop.InTransport (stop : Stop) : Prop :=
  ∃ fault, stop = .fault fault ∧ fault.InTransport

theorem stops_in_transport (command diagnostic : String) :
    (Stop.fault (.transport command diagnostic)).InTransport :=
  ⟨_, rfl, in_transport command diagnostic⟩

namespace BusProgram

variable {ρ : Type} (launch : Launcher ρ) (settings : BusSettings)

theorem run_stop (direction : Direction) (span : Span) (input : Bytes) (host : ρ) {stop : Stop}
    (failed : (run launch settings direction span input host).result = .error stop) :
    stop.InTransport := by
  unfold run at failed
  simp only at failed
  split at failed
  · cases failed
    exact stops_in_transport _ _
  · split at failed
    · cases failed
    · cases failed
      exact stops_in_transport _ _

theorem read_span_stop (span : Span) (host : ρ) {stop : Stop}
    (failed : (readSpan launch settings span host).result = .error stop) :
    stop.InTransport := by
  unfold readSpan at failed
  simp only at failed
  split at failed
  · next other stopped =>
      cases failed
      exact run_stop launch settings _ _ _ _ stopped
  · split at failed
    · cases failed
    · cases failed
      exact stops_in_transport _ _

theorem read_spans_stop (spans : List Span) (host : ρ) {stop : Stop}
    (failed : (readSpans launch settings spans host).result = .error stop) :
    stop.InTransport := by
  induction spans generalizing host stop with
  | nil => cases failed
  | cons span spans ih =>
      simp only [readSpans] at failed
      split at failed
      · next other stopped =>
          cases failed
          exact read_span_stop launch settings span host stopped
      · next bytes arrived =>
          cases rest : (readSpans launch settings spans
              (readSpan launch settings span host).node).result with
          | ok others =>
              simp only [rest, Except.map] at failed
              cases failed
          | error other =>
              simp only [rest, Except.map] at failed
              cases failed
              exact ih _ rest

theorem write_span_stop (span : Span) (bytes : Bytes) (host : ρ) {stop : Stop}
    (failed : (writeSpan launch settings span bytes host).result = .error stop) :
    stop.InTransport := by
  unfold writeSpan at failed
  simp only at failed
  split at failed
  · next other stopped =>
      cases failed
      exact run_stop launch settings _ _ _ _ stopped
  · split at failed
    · cases failed
    · cases failed
      exact stops_in_transport _ _

theorem write_spans_stop (spans : List Span) (bytes : Bytes) (host : ρ) {stop : Stop}
    (failed : (writeSpans launch settings spans bytes host).result = .error stop) :
    stop.InTransport := by
  induction spans generalizing bytes host with
  | nil => cases failed
  | cons span spans ih =>
      simp only [writeSpans] at failed
      split at failed
      · next other stopped =>
          cases failed
          exact write_span_stop launch settings span _ host stopped
      · exact ih _ _ failed

theorem read_stop (address length : Nat) (host : ρ) {stop : Stop}
    (failed : ((remote launch settings).read address length host).result = .error stop) :
    stop.InTransport ∨ plan settings.blockSize.toNat address length = .error stop := by
  simp only [remote] at failed
  split at failed
  · next other unplanned =>
      cases failed
      exact Or.inr unplanned
  · left
    split at failed
    · next other stopped =>
        cases failed
        exact read_spans_stop launch settings _ host stopped
    · split at failed
      · cases failed
      · cases failed
        exact stops_in_transport _ _

theorem write_stop (address : Nat) (bytes : Bytes) (host : ρ) {stop : Stop}
    (failed : ((remote launch settings).write address bytes host).result = .error stop) :
    stop.InTransport ∨ plan settings.blockSize.toNat address bytes.length = .error stop := by
  simp only [remote] at failed
  split at failed
  · next other unplanned =>
      cases failed
      exact Or.inr unplanned
  · exact Or.inl (write_spans_stop launch settings _ _ host failed)

theorem fails_in_transport : (remote launch settings).FailsInTransport := by
  constructor
  · intro address length host fault failed
    rcases read_stop launch settings address length host failed with ⟨_, same, own⟩ | unplanned
    · cases same
      exact own
    · cases (plan_error unplanned).1
  · intro address bytes host fault failed
    rcases write_stop launch settings address bytes host failed with ⟨_, same, own⟩ | unplanned
    · cases same
      exact own
    · cases (plan_error unplanned).1

theorem crashes_in_sums :
    (remote launch settings).CrashesIn (· = .sumOverflow) := by
  constructor
  · intro address length
    constructor
    intro host crash failed
    rcases read_stop launch settings address length host failed with ⟨_, same, _⟩ | unplanned
    · cases same
    · exact Stop.crash.inj (plan_error unplanned).1
  · intro address bytes
    constructor
    intro host crash failed
    rcases write_stop launch settings address bytes host failed with ⟨_, same, _⟩ | unplanned
    · cases same
    · exact Stop.crash.inj (plan_error unplanned).1

end BusProgram
end RemoteBoot
