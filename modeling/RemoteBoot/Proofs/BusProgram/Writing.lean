import RemoteBoot.Proofs.BusProgram.Exchanges
import RemoteBoot.Proofs.BusProgram.Splitting

/-!
# Writing through the bus program

A write feeds the chunks of its spans to one call each, until one fails.  When all succeed the calls
have been fed the whole of the bytes exactly if the blocks can be counted in 32 bits.  A longer write
succeeds as well, but the blocks that the count does not show are not written.
-/

set_option autoImplicit false

namespace RemoteBoot.BusProgram

variable {ρ : Type} (launch : Launcher ρ) (settings : BusSettings)

/-- Spans with the bytes that go to them. -/
def parcels : List Span → Bytes → List (Span × Bytes)
  | [], _ => []
  | span :: spans, bytes =>
    (span, bytes.take span.length) :: parcels spans (bytes.drop span.length)

def parcelCall (parcel : Span × Bytes) : Call :=
  writeCall settings parcel.1 parcel.2

/-- Calls that are fed bytes chunk by chunk; every chunk goes to the address where it belongs. -/
inductive Feeds : Nat → Bytes → List Call → Prop
  | nothing (address : Nat) : Feeds address [] []
  | chunk {span : Span} {chunk rest : Bytes} {calls : List Call} :
      span.length = chunk.length → Feeds (span.address + chunk.length) rest calls →
      Feeds span.address (chunk ++ rest) (writeCall settings span chunk :: calls)

theorem inputs_of_feeds {address : Nat} {bytes : Bytes} {calls : List Call}
    (feeds : Feeds settings address bytes calls) : calls.flatMap Call.input = bytes := by
  induction feeds with
  | nothing => rfl
  | chunk _ _ ih => rw [List.flatMap_cons, ih, writeCall]

theorem feeds_parcels {address : Nat} {spans : List Span} {bytes : Bytes}
    (consecutive : Consecutive address spans) (total : totalLength spans = bytes.length) :
    Feeds settings address bytes ((parcels spans bytes).map (parcelCall settings)) := by
  induction spans generalizing address bytes with
  | nil =>
      rw [List.eq_nil_of_length_eq_zero total.symm]
      exact Feeds.nothing address
  | cons span spans ih =>
      obtain ⟨rfl, behind⟩ := consecutive
      rw [total_length_cons] at total
      have chunk : span.length = (bytes.take span.length).length := by
        rw [List.length_take]
        omega
      have left : totalLength spans = (bytes.drop span.length).length := by
        rw [List.length_drop]
        omega
      have rest := ih behind left
      rw [chunk] at rest
      have feeds := Feeds.chunk chunk rest
      rw [← chunk, List.take_append_drop] at feeds
      exact feeds

theorem length_inputs_parcels (spans : List Span) (bytes : Bytes) :
    (((parcels spans bytes).map (parcelCall settings)).flatMap Call.input).length ≤
      totalLength spans := by
  induction spans generalizing bytes with
  | nil => exact Nat.le_refl 0
  | cons span spans ih =>
      have rest := ih (bytes.drop span.length)
      have first := List.length_take_le span.length bytes
      simp only [parcels, parcelCall, writeCall, List.map_cons, List.flatMap_cons,
        List.length_append, total_length_cons] at rest ⊢
      omega

/-- The calls of a write are fed all its bytes exactly when its blocks can be counted. -/
theorem feeds_parcels_iff {blockSize address : Nat} {bytes : Bytes} {spans : List Span}
    (planned : plan blockSize address bytes.length = .ok spans) :
    Feeds settings address bytes ((parcels spans bytes).map (parcelCall settings)) ↔
      Countable blockSize bytes.length := by
  constructor
  · intro feeds
    have all := congrArg List.length (inputs_of_feeds settings feeds)
    have fed := length_inputs_parcels settings spans bytes
    rcases Nat.eq_zero_or_pos bytes.length with none | some
    · rw [none]
      exact countable_of_short blockSize (by decide)
    · have split := total_length_spans planned some
      rw [← total_length_spans_iff planned]
      omega
  · intro few
    have splits := splits_of_planned planned few
    exact feeds_parcels settings splits.consecutive splits.total

def writeParcel (parcel : Span × Bytes) (host : ρ) : Transfer ρ Unit :=
  writeSpan launch settings parcel.1 parcel.2 host

theorem takes_iff_written (parcel : Span × Bytes) (host : ρ) :
    Takes (launch.exchange (parcelCall settings parcel) host).answer ↔
      ∃ value, (writeParcel launch settings parcel host).result = .ok value := by
  have ran := run_ok_iff launch settings .write parcel.1 parcel.2 host
  rw [writeParcel, writeSpan]
  cases outcome : (run launch settings .write parcel.1 parcel.2 host).result with
  | error stop =>
      simp only [reduceCtorEq, exists_false, iff_false]
      rintro ⟨completion, succeeded, _⟩
      rw [(ran completion).mpr succeeded] at outcome
      cases outcome
  | ok completion =>
      have succeeded := (ran completion).mp outcome
      have only : Takes (launch.exchange (parcelCall settings parcel) host).answer ↔
          completion.unfed = none := by
        constructor
        · rintro ⟨other, also, fed⟩
          rw [also.unique succeeded] at fed
          exact fed
        · intro fed
          exact ⟨completion, succeeded, fed⟩
      rw [only]
      cases fed : completion.unfed <;> simp [fed]

theorem write_parcel_recorded (parcel : Span × Bytes) (host : ρ) (past : List Exchange) :
    Recorded (writeParcel launch.recorded settings parcel (host, past))
      (writeParcel launch settings parcel host) past
      [launch.exchange (parcelCall settings parcel) host] := by
  have ran := run_recorded launch settings .write parcel.1 parcel.2 host past
  constructor <;> simp only [writeParcel, writeSpan, ran.result, ran.node] <;> split <;> try rfl
  all_goals split <;> rfl

theorem write_spans_eq (spans : List Span) (bytes : Bytes) (host : ρ) :
    writeSpans launch settings spans bytes host =
      let all := inTurn (writeParcel launch settings) (parcels spans bytes) host
      ⟨all.result.map fun _ => (), all.node, all.notes⟩ := by
  induction spans generalizing bytes host with
  | nil => rfl
  | cons span spans ih =>
      simp only [writeSpans, parcels, inTurn, writeParcel]
      cases (writeSpan launch settings span (bytes.take span.length) host).result with
      | error stop => rfl
      | ok value =>
          simp only [ih]
          cases (inTurn (writeParcel launch settings) (parcels spans (bytes.drop span.length))
            (writeSpan launch settings span (bytes.take span.length) host).node).result <;> rfl

theorem write_spans_recorded (spans : List Span) (bytes : Bytes) (host : ρ)
    (past : List Exchange) :
    ∃ record, Recorded (writeSpans launch.recorded settings spans bytes (host, past))
        (writeSpans launch settings spans bytes host) past record ∧
      ((Completes (parcelCall settings) (fun _ => Takes) (parcels spans bytes) record ∧
          (writeSpans launch settings spans bytes host).result = .ok ()) ∨
        (BreaksOff (parcelCall settings) (fun _ => Takes) (parcels spans bytes) record ∧
          ∃ stop, (writeSpans launch settings spans bytes host).result = .error stop)) := by
  obtain ⟨record, made, ended⟩ := in_turn_recorded launch (fun _ => ())
    (write_parcel_recorded launch settings) (takes_iff_written launch settings)
    (fun _ _ _ _ => rfl) (parcels spans bytes) host past
  simp only [write_spans_eq]
  refine ⟨record, ⟨by simp only [made.result], made.node⟩, ?_⟩
  rcases ended with ⟨completes, values⟩ | ⟨broken, stop, failed⟩
  · refine Or.inl ⟨completes, ?_⟩
    rw [values, Except.map]
  · refine Or.inr ⟨broken, stop, ?_⟩
    rw [failed, Except.map]

/-- A write that cannot be split crashes, and makes no call. -/
theorem write_of_unplanned {address : Nat} {bytes : Bytes} {stop : Stop}
    (unplanned : plan settings.blockSize.toNat address bytes.length = .error stop) (host : ρ) :
    (remote launch settings).write address bytes host =
      ⟨.error (.crash .sumOverflow), host, []⟩ := by
  rw [(plan_error unplanned).1] at unplanned
  simp only [remote, unplanned]

theorem write_of_planned {address : Nat} {bytes : Bytes} {spans : List Span}
    (planned : plan settings.blockSize.toNat address bytes.length = .ok spans) (host : ρ) :
    (remote launch settings).write address bytes host =
      writeSpans launch settings spans bytes host := by
  simp only [remote, planned]

/-- A write within 64 bits makes the calls of its plan up to the first that fails, and then reports a
transport fault.  A write that succeeds has fed its calls all the bytes exactly when the blocks of
the write can be counted in 32 bits.  A write whose spans need more than 64 bits crashes with no call
made. -/
theorem writes_feed_everything_iff (address : Nat) (bytes : Bytes) (host : ρ) :
    let left := (remote launch.recorded settings).write address bytes (host, [])
    let record := left.node.2
    (address + bytes.length ≤ 0x10000000000000000 →
      ∃ spans, plan settings.blockSize.toNat address bytes.length = .ok spans) ∧
    (∀ spans, plan settings.blockSize.toNat address bytes.length = .ok spans →
      Recorded left ((remote launch settings).write address bytes host) [] record ∧
      ((Completes (parcelCall settings) (fun _ => Takes) (parcels spans bytes) record ∧
          left.result = .ok ()) ∨
        (BreaksOff (parcelCall settings) (fun _ => Takes) (parcels spans bytes) record ∧
          ∃ command diagnostic,
            left.result = .error (.fault (.transport command diagnostic)))) ∧
      (left.result = .ok () →
        (Feeds settings address bytes (record.map Exchange.call) ↔
          bytes.length / max settings.blockSize.toNat 1 < 0x100000000))) ∧
    ∀ stop, plan settings.blockSize.toNat address bytes.length = .error stop →
      left = ⟨.error (.crash .sumOverflow), (host, []), []⟩ := by
  intro left record
  refine ⟨plan_ok_of_le _, ?_, ?_⟩
  · intro spans planned
    have kept : left = writeSpans launch.recorded settings spans bytes (host, []) :=
      write_of_planned launch.recorded settings planned (host, [])
    obtain ⟨made, recorded, ended⟩ := write_spans_recorded launch settings spans bytes host []
    rw [← kept, ← write_of_planned launch settings planned] at recorded
    rw [← write_of_planned launch settings planned] at ended
    have node : record = made := congrArg Prod.snd recorded.node
    rw [node]
    rcases ended with ⟨completes, written⟩ | ⟨broken, stop, failed⟩
    · refine ⟨recorded, Or.inl ⟨completes, recorded.result.trans written⟩, ?_⟩
      intro _
      rw [calls_of_completes _ _ completes]
      exact feeds_parcels_iff settings planned
    · rcases write_stop launch settings address bytes host failed with
        ⟨fault, rfl, own⟩ | unplanned
      · obtain ⟨command, diagnostic, rfl⟩ := transport_of_in_transport own
        have result : left.result = .error (.fault (.transport command diagnostic)) :=
          recorded.result.trans failed
        refine ⟨recorded, Or.inr ⟨broken, command, diagnostic, result⟩, ?_⟩
        intro written
        rw [result] at written
        cases written
      · rw [planned] at unplanned
        cases unplanned
  · intro stop unplanned
    exact write_of_unplanned launch.recorded settings unplanned (host, [])

/-- A program that reads its input and is always content. -/
def contentProgram : Launcher Unit := fun _ host =>
  (.ok ⟨.code 0, [], [], none⟩, host)

/-- A write that succeeds has not always fed all its bytes: of four gigabytes in blocks of one byte
none are written. -/
theorem long_writes_not_always_fed :
    ¬ ∀ (launch : Launcher Unit) (settings : BusSettings) (address : Nat) (bytes : Bytes),
      address + bytes.length ≤ 0x10000000000000000 →
      let left := (remote launch.recorded settings).write address bytes ((), [])
      left.result = .ok () →
        Feeds settings address bytes (left.node.2.map Exchange.call) := by
  intro always
  obtain ⟨bytes, length⟩ : ∃ bytes : Bytes, bytes.length = 0x100000000 :=
    ⟨List.replicate 0x100000000 0, List.length_replicate⟩
  have planned : plan ({ blockSize := 1 } : BusSettings).blockSize.toNat 0 bytes.length =
      .ok [⟨0, 1, 0⟩] := by
    rw [length]
    exact ok_of_to_option (by decide)
  have fed := always contentProgram { blockSize := 1 } 0 bytes (by rw [length]; decide)
  rw [write_of_planned contentProgram.recorded { blockSize := 1 } planned ((), [])] at fed
  have inputs := congrArg List.length (inputs_of_feeds _ (fed rfl))
  rw [length] at inputs
  cases inputs

end RemoteBoot.BusProgram
