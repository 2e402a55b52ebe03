import RemoteBoot.BusProgram.Transport
import RemoteBoot.Proofs.Remote.Tracking

/-!
# Hosts that answer alike

A transfer knows its host by the answers of the bus program alone.  Where two launchers give the same
answers on related hosts and leave related hosts, transfers through them do so too.
-/

set_option autoImplicit false

namespace RemoteBoot.BusProgram

variable {σ ρ : Type}

/-- On related hosts the launchers give one answer, and they leave related hosts. -/
def AnswersTrack (related : σ → ρ → Prop) (launch : Launcher σ) (other : Launcher ρ) : Prop :=
  ∀ (call : Call) {host : σ} {place : ρ}, related host place →
    (launch call host).1 = (other call place).1 ∧ related (launch call host).2 (other call place).2

namespace AnswersTrack

variable {related : σ → ρ → Prop} {launch : Launcher σ} {other : Launcher ρ}
  (answers : AnswersTrack related launch other) (settings : BusSettings)

include answers

theorem run_alike (direction : Direction) (span : Span) (input : Bytes) {host : σ} {place : ρ}
    (near : related host place) :
    (run launch settings direction span input host).result =
        (run other settings direction span input place).result ∧
      related (run launch settings direction span input host).node
        (run other settings direction span input place).node := by
  have alike := answers ⟨settings.program, arguments settings.node direction span, input⟩ near
  rcases left : launch ⟨settings.program, arguments settings.node direction span, input⟩ host with
    ⟨answer, later⟩
  rcases right : other ⟨settings.program, arguments settings.node direction span, input⟩ place with
    ⟨answered, rest⟩
  rw [left, right] at alike
  obtain ⟨same, after⟩ := alike
  cases same
  simp only [run, left, right]
  cases answer with
  | error reason => exact ⟨rfl, after⟩
  | ok completion =>
      simp only
      split
      · exact ⟨rfl, after⟩
      · exact ⟨rfl, after⟩

theorem read_span_alike (span : Span) {host : σ} {place : ρ} (near : related host place) :
    (readSpan launch settings span host).result = (readSpan other settings span place).result ∧
      related (readSpan launch settings span host).node
        (readSpan other settings span place).node := by
  obtain ⟨same, after⟩ := answers.run_alike settings .read span [] near
  simp only [readSpan, same]
  split
  · exact ⟨rfl, after⟩
  · split
    · exact ⟨rfl, after⟩
    · exact ⟨rfl, after⟩

theorem read_spans_alike (spans : List Span) {host : σ} {place : ρ} (near : related host place) :
    (readSpans launch settings spans host).result = (readSpans other settings spans place).result ∧
      related (readSpans launch settings spans host).node
        (readSpans other settings spans place).node := by
  induction spans generalizing host place with
  | nil => exact ⟨rfl, near⟩
  | cons span spans ih =>
      obtain ⟨same, after⟩ := answers.read_span_alike settings span near
      obtain ⟨others, behind⟩ := ih after
      simp only [readSpans, same]
      split
      · exact ⟨rfl, after⟩
      · exact ⟨by rw [others], behind⟩

theorem write_span_alike (span : Span) (bytes : Bytes) {host : σ} {place : ρ}
    (near : related host place) :
    (writeSpan launch settings span bytes host).result =
        (writeSpan other settings span bytes place).result ∧
      related (writeSpan launch settings span bytes host).node
        (writeSpan other settings span bytes place).node := by
  obtain ⟨same, after⟩ := answers.run_alike settings .write span bytes near
  simp only [writeSpan, same]
  split
  · exact ⟨rfl, after⟩
  · split
    · exact ⟨rfl, after⟩
    · exact ⟨rfl, after⟩

theorem write_spans_alike (spans : List Span) (bytes : Bytes) {host : σ} {place : ρ}
    (near : related host place) :
    (writeSpans launch settings spans bytes host).result =
        (writeSpans other settings spans bytes place).result ∧
      related (writeSpans launch settings spans bytes host).node
        (writeSpans other settings spans bytes place).node := by
  induction spans generalizing bytes host place with
  | nil => exact ⟨rfl, near⟩
  | cons span spans ih =>
      obtain ⟨same, after⟩ := answers.write_span_alike settings span (bytes.take span.length) near
      obtain ⟨others, behind⟩ := ih (bytes.drop span.length) after
      simp only [writeSpans, same]
      split
      · exact ⟨rfl, after⟩
      · exact ⟨others, behind⟩

theorem reads : ReadsTrack related (remote launch settings) (remote other settings) := by
  intro address length
  apply Tracks.of_transfer
  intro host place near
  simp only [remote]
  split
  · exact ⟨rfl, near⟩
  · next spans _ =>
      obtain ⟨same, after⟩ := answers.read_spans_alike settings spans near
      simp only [same]
      split
      · exact ⟨rfl, after⟩
      · split
        · exact ⟨rfl, after⟩
        · exact ⟨rfl, after⟩

theorem writes : WritesTrack related (remote launch settings) (remote other settings) := by
  intro address bytes
  apply Tracks.of_transfer
  intro host place near
  simp only [remote]
  split
  · exact ⟨rfl, near⟩
  · exact answers.write_spans_alike settings _ bytes near

end AnswersTrack
end RemoteBoot.BusProgram
