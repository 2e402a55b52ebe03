import RemoteBoot.Node.Memory
import RemoteBoot.Proofs.BusProgram.Exchanges
import RemoteBoot.Proofs.BusProgram.Splitting

/-!
# Reading through the bus program

A read makes the calls of its plan until one fails.  It gives the bytes that the calls printed, one
behind the other, or no bytes and a transport fault.  From a program that serves the bytes of a
memory it gets the bytes of this memory, whatever the block size is.  A read without a plan, for want
of an address, makes no call.
-/

set_option autoImplicit false

namespace RemoteBoot

theorem Memory.peek_add (memory : Memory) (address first second : Nat) :
    memory.peek address (first + second) =
      memory.peek address first ++ memory.peek (address + first) second := by
  rw [peek, List.range_add, List.map_append, List.map_map]
  apply congrArg
  apply List.map_congr_left
  intro offset _
  rw [Function.comp_apply, Nat.add_assoc]

namespace BusProgram

variable {ρ : Type} (launch : Launcher ρ) (settings : BusSettings)

theorem read_span_ok_iff (span : Span) (host : ρ) (bytes : Bytes) :
    (readSpan launch settings span host).result = .ok bytes ↔
      ∃ completion, Succeeded (launch (readCall settings span) host).1 completion ∧
        completion.output.length = span.length ∧ completion.output = bytes := by
  have ran := run_ok_iff launch settings .read span [] host
  rw [readSpan]
  cases outcome : (run launch settings .read span [] host).result with
  | error stop =>
      simp only [reduceCtorEq, false_iff]
      rintro ⟨completion, succeeded, _⟩
      rw [(ran completion).mpr succeeded] at outcome
      cases outcome
  | ok completion =>
      have succeeded := (ran completion).mp outcome
      simp only
      split
      · next whole =>
          simp only [Except.ok.injEq]
          constructor
          · rintro rfl
            exact ⟨completion, succeeded, whole, rfl⟩
          · rintro ⟨other, also, _, rfl⟩
            rw [also.unique succeeded]
      · next cut =>
          simp only [reduceCtorEq, false_iff]
          rintro ⟨other, also, whole, _⟩
          rw [also.unique succeeded] at whole
          exact cut whole

theorem delivers_iff_read (span : Span) (host : ρ) :
    Delivers span (launch.exchange (readCall settings span) host).answer ↔
      ∃ bytes, (readSpan launch settings span host).result = .ok bytes := by
  constructor
  · rintro ⟨completion, succeeded, whole⟩
    exact ⟨completion.output,
      (read_span_ok_iff launch settings span host _).mpr ⟨completion, succeeded, whole, rfl⟩⟩
  · rintro ⟨bytes, read⟩
    obtain ⟨completion, succeeded, whole, _⟩ := (read_span_ok_iff launch settings span host bytes).mp read
    exact ⟨completion, succeeded, whole⟩

theorem output_of_read (span : Span) (host : ρ) (bytes : Bytes)
    (read : (readSpan launch settings span host).result = .ok bytes) :
    (launch.exchange (readCall settings span) host).output = bytes := by
  obtain ⟨completion, succeeded, _, rfl⟩ := (read_span_ok_iff launch settings span host bytes).mp read
  simp only [Exchange.output, Launcher.exchange, succeeded.started]

theorem read_span_recorded (span : Span) (host : ρ) (past : List Exchange) :
    Recorded (readSpan launch.recorded settings span (host, past))
      (readSpan launch settings span host) past
      [launch.exchange (readCall settings span) host] := by
  have ran := run_recorded launch settings .read span [] host past
  constructor <;> simp only [readSpan, ran.result, ran.node] <;> split <;> try rfl
  all_goals split <;> rfl

theorem read_spans_eq (spans : List Span) (host : ρ) :
    readSpans launch settings spans host =
      let all := inTurn (readSpan launch settings) spans host
      ⟨all.result.map List.flatten, all.node, all.notes⟩ := by
  induction spans generalizing host with
  | nil => rfl
  | cons span spans ih =>
      simp only [readSpans, inTurn]
      cases (readSpan launch settings span host).result with
      | error stop => rfl
      | ok bytes =>
          simp only [ih]
          cases (inTurn (readSpan launch settings) spans
            (readSpan launch settings span host).node).result <;> rfl

theorem read_spans_recorded (spans : List Span) (host : ρ) (past : List Exchange) :
    ∃ record, Recorded (readSpans launch.recorded settings spans (host, past))
        (readSpans launch settings spans host) past record ∧
      ((Completes (readCall settings) Delivers spans record ∧
          (readSpans launch settings spans host).result = .ok (record.flatMap Exchange.output)) ∨
        (BreaksOff (readCall settings) Delivers spans record ∧
          ∃ stop, (readSpans launch settings spans host).result = .error stop)) := by
  obtain ⟨record, made, ended⟩ := in_turn_recorded launch Exchange.output
    (read_span_recorded launch settings) (delivers_iff_read launch settings)
    (output_of_read launch settings) spans host past
  simp only [read_spans_eq]
  refine ⟨record, ⟨by simp only [made.result], made.node⟩, ?_⟩
  rcases ended with ⟨completes, values⟩ | ⟨broken, stop, failed⟩
  · refine Or.inl ⟨completes, ?_⟩
    rw [values, Except.map, List.flatMap_def]
  · refine Or.inr ⟨broken, stop, ?_⟩
    rw [failed, Except.map]

theorem length_of_delivered {spans : List Span} {record : List Exchange}
    (completes : Completes (readCall settings) Delivers spans record) :
    (record.flatMap Exchange.output).length = totalLength spans := by
  induction completes with
  | done => rfl
  | next _ delivered _ ih =>
      obtain ⟨completion, succeeded, whole⟩ := delivered
      rw [List.flatMap_cons, List.length_append, ih, total_length_cons, Exchange.output,
        succeeded.started, whole]

/-- A read of a span is answered with the bytes that a memory has there. -/
def Serves (image : Memory) (span : Span) : Prop :=
  ∀ host, ∃ completion, Succeeded (launch (readCall settings span) host).1 completion ∧
    completion.output = image.peek span.address span.length

theorem read_spans_served {image : Memory} {spans : List Span} {address : Nat}
    (consecutive : Consecutive address spans)
    (served : ∀ span ∈ spans, Serves launch settings image span) (host : ρ) :
    (readSpans launch settings spans host).result =
      .ok (image.peek address (totalLength spans)) := by
  induction spans generalizing address host with
  | nil => rfl
  | cons span spans ih =>
      obtain ⟨start, behind⟩ := consecutive
      obtain ⟨completion, succeeded, printed⟩ := served span List.mem_cons_self host
      have read : (readSpan launch settings span host).result = .ok completion.output :=
        (read_span_ok_iff launch settings span host _).mpr
          ⟨completion, succeeded, by rw [printed, image.length_peek], rfl⟩
      have rest := ih behind (fun other later => served other (List.mem_cons_of_mem span later))
        (readSpan launch settings span host).node
      simp only [readSpans, read, rest, Except.map]
      rw [printed, start, total_length_cons, image.peek_add]

/-- The result of a read is that of its spans, as far as the length is right. -/
theorem read_of_spans {address length : Nat} {spans : List Span} {host : ρ} {bytes : Bytes}
    (planned : plan settings.blockSize.toNat address length = .ok spans)
    (read : (readSpans launch settings spans host).result = .ok bytes)
    (whole : bytes.length = length) :
    ((remote launch settings).read address length host).result = .ok bytes := by
  simp only [remote, planned, read, whole, if_true]

/-- A read that cannot be split crashes, and makes no call. -/
theorem read_of_unplanned {address length : Nat} {stop : Stop}
    (unplanned : plan settings.blockSize.toNat address length = .error stop) (host : ρ) :
    (remote launch settings).read address length host =
      ⟨.error (.crash .sumOverflow), host, []⟩ := by
  rw [(plan_error unplanned).1] at unplanned
  simp only [remote, unplanned]

theorem read_recorded {address length : Nat} (short : length < 0x100000000) {spans : List Span}
    (planned : plan settings.blockSize.toNat address length = .ok spans) (host : ρ) :
    ∃ record, Recorded ((remote launch.recorded settings).read address length (host, []))
        ((remote launch settings).read address length host) [] record ∧
      ((Completes (readCall settings) Delivers spans record ∧
          ((remote launch settings).read address length host).result =
            .ok (record.flatMap Exchange.output) ∧
          (record.flatMap Exchange.output).length = length) ∨
        (BreaksOff (readCall settings) Delivers spans record ∧
          ∃ stop, ((remote launch settings).read address length host).result = .error stop)) := by
  have total := (splits_of_planned planned
    (countable_of_short settings.blockSize.toNat short)).total
  obtain ⟨record, made, ended⟩ := read_spans_recorded launch settings spans host []
  refine ⟨record, ?_, ?_⟩
  · rcases ended with ⟨completes, read⟩ | ⟨_, stop, failed⟩
    · have whole := length_of_delivered settings completes
      rw [total] at whole
      constructor <;> simp only [remote, planned, made.result, made.node, read, whole, if_true]
    · constructor <;> simp only [remote, planned, made.result, made.node, failed]
  · rcases ended with ⟨completes, read⟩ | ⟨broken, stop, failed⟩
    · have whole := length_of_delivered settings completes
      rw [total] at whole
      exact Or.inl ⟨completes, read_of_spans launch settings planned read whole, whole⟩
    · exact Or.inr ⟨broken, stop, by simp only [remote, planned, failed]⟩

/-- A read of fewer than four gigabytes within 64 bits is split into at most two spans.  It makes
their calls up to the first that fails, and gives what they printed or a transport fault; from a
program that serves a memory it gives the bytes of this memory for every block size.  A read whose
spans need more than 64 bits crashes with no call made. -/
theorem reads_are_exact (address : Nat) {length : Nat} (short : length < 0x100000000) (host : ρ) :
    let left := (remote launch.recorded settings).read address length (host, [])
    let record := left.node.2
    (address + length ≤ 0x10000000000000000 →
      ∃ spans, plan settings.blockSize.toNat address length = .ok spans) ∧
    (∀ spans, plan settings.blockSize.toNat address length = .ok spans →
      (Splits address length spans ∧ spans.length ≤ 2 ∧
        ∀ span ∈ spans, span.blockSize ≤ max settings.blockSize.toNat 1 ∧
          address ≤ span.address ∧ span.address + span.length ≤ address + length) ∧
      Recorded left ((remote launch settings).read address length host) [] record ∧
      ((Completes (readCall settings) Delivers spans record ∧
          left.result = .ok (record.flatMap Exchange.output) ∧
          (record.flatMap Exchange.output).length = length) ∨
        (BreaksOff (readCall settings) Delivers spans record ∧
          ∃ command diagnostic,
            left.result = .error (.fault (.transport command diagnostic))))) ∧
    (∀ stop, plan settings.blockSize.toNat address length = .error stop →
      left = ⟨.error (.crash .sumOverflow), (host, []), []⟩) ∧
    ∀ (image : Memory) (size : UInt32) (spans : List Span),
      plan size.toNat address length = .ok spans →
      (∀ span ∈ spans, Serves launch settings image span) →
      ∀ other, ((remote launch { settings with blockSize := size }).read address length other).result =
        .ok (image.peek address length) := by
  intro left record
  refine ⟨plan_ok_of_le _, ?_, ?_, ?_⟩
  · intro spans planned
    have splits := splits_of_planned planned (countable_of_short settings.blockSize.toNat short)
    obtain ⟨made, recorded, ended⟩ := read_recorded launch settings short planned host
    have node : record = made := congrArg Prod.snd recorded.node
    rw [node]
    refine ⟨⟨splits, length_spans planned, ?_⟩, recorded, ?_⟩
    · intro span member
      have within := within_of_consecutive splits.consecutive span member
      rw [splits.total] at within
      exact ⟨block_size_of_planned planned member, within⟩
    · rcases ended with ⟨completes, read, whole⟩ | ⟨broken, stop, failed⟩
      · exact Or.inl ⟨completes, recorded.result.trans read, whole⟩
      · rcases read_stop launch settings address length host failed with
          ⟨fault, rfl, own⟩ | unplanned
        · obtain ⟨command, diagnostic, rfl⟩ := transport_of_in_transport own
          exact Or.inr ⟨broken, command, diagnostic, recorded.result.trans failed⟩
        · rw [planned] at unplanned
          cases unplanned
  · intro stop unplanned
    exact read_of_unplanned launch.recorded settings unplanned (host, [])
  · intro image size spans planned served other
    have splits := splits_of_planned planned (countable_of_short size.toNat short)
    have read := read_spans_served launch { settings with blockSize := size } splits.consecutive
      served other
    rw [splits.total] at read
    exact read_of_spans launch { settings with blockSize := size } planned read
      (image.length_peek _ _)

/-- A program that prints the bytes of a memory at the address that it is told. -/
def memoryProgram (image : Memory) : Launcher Unit := fun call host =>
  match call.arguments.map Numeral.address? with
  | [_, _, _, _, some address, _, some size, _, some count] =>
    (.ok ⟨.code 0, image.peek address (size * count), [], none⟩, host)
  | _ => (.error "usage", host)

/-- Memory that holds at every place the low byte of its address. -/
def ramp : Memory :=
  ⟨UInt8.ofNat⟩

theorem ramp_is_read_exactly :
    7 < 0x100000000 ∧ (∀ size ∈ [(0 : UInt32), 3, 7, 2048],
      ((remote (memoryProgram ramp) { blockSize := size }).read 0x10fd 7 ()).result =
        .ok [0xfd, 0xfe, 0xff, 0, 1, 2, 3]) ∧
      (remote (memoryProgram ramp).recorded {}).read 0xffffffffffffffff 5000 ((), []) =
        ⟨.error (.crash .sumOverflow), ((), []), []⟩ := by
  have short : 7 < 0x100000000 := by decide
  refine ⟨short, ?_, ?_⟩
  · have served := (reads_are_exact (memoryProgram ramp) {} 0x10fd short ()).2.2.2 ramp
    intro size member
    obtain ⟨spans, planned⟩ :=
      plan_ok_of_le size.toNat (by decide : 0x10fd + 7 ≤ 0x10000000000000000)
    refine served size spans planned ?_ ()
    intro span listed host
    refine ⟨⟨.code 0, ramp.peek span.address span.length, [], none⟩, ⟨?_, rfl⟩, rfl⟩
    have told : ∀ block ∈ [0, 3, 7, 2048],
        ∀ span ∈ (plan block 0x10fd 7).toOption.getD [],
          (readCall {} span).arguments.map Numeral.address? =
            [none, some 0, none, none, some span.address, none, some span.blockSize, none,
              some span.blockCount] := by
      decide +kernel
    have tried : size.toNat ∈ [(0 : UInt32), 3, 7, 2048].map UInt32.toNat :=
      List.mem_map_of_mem member
    have own := told size.toNat tried
    rw [planned] at own
    simp only [memoryProgram, own span listed]
    rfl
  · have unplanned : plan ({} : BusSettings).blockSize.toNat 0xffffffffffffffff 5000 =
        .error (.crash .sumOverflow) := crash_eq_some_iff.mp (by decide +kernel)
    exact (reads_are_exact (memoryProgram ramp) {} 0xffffffffffffffff (by decide) ()).2.2.1 _
      unplanned

end BusProgram
end RemoteBoot
