import RemoteBoot.BusProgram.Plan

/-!
# The spans of a transfer

A transfer is split into a bulk of whole blocks and a tail.  The two lie one behind the other and
make up the transfer exactly when the blocks can be counted in 32 bits; a longer transfer loses the
blocks that the count does not show.  A transfer that ends within 64 bits can always be split.
-/

set_option autoImplicit false

namespace RemoteBoot.BusProgram

/-- Spans that lie one behind the other from an address on. -/
def Consecutive : Nat → List Span → Prop
  | _, [] => True
  | address, span :: spans =>
    span.address = address ∧ Consecutive (address + span.length) spans

def totalLength : List Span → Nat
  | [] => 0
  | span :: spans => span.length + totalLength spans

@[simp]
theorem total_length_nil : totalLength [] = 0 := rfl

@[simp]
theorem total_length_cons (span : Span) (spans : List Span) :
    totalLength (span :: spans) = span.length + totalLength spans := rfl

/-- The spans cut a range of addresses into parts that have bytes. -/
structure Splits (address length : Nat) (spans : List Span) : Prop where
  consecutive : Consecutive address spans
  total : totalLength spans = length
  positive : ∀ span ∈ spans, 0 < span.length

theorem within_of_consecutive {address : Nat} {spans : List Span}
    (consecutive : Consecutive address spans) :
    ∀ span ∈ spans, address ≤ span.address ∧
      span.address + span.length ≤ address + totalLength spans := by
  induction spans generalizing address with
  | nil =>
      intro span member
      cases member
  | cons first spans ih =>
      obtain ⟨start, behind⟩ := consecutive
      intro span member
      rw [total_length_cons]
      rcases List.mem_cons.mp member with rfl | later
      · omega
      · have inside := ih behind span later
        omega

/-- The number of blocks, which the bus program is told in 32 bits. -/
def blockTotal (blockSize length : Nat) : Nat :=
  length / max blockSize 1

def Countable (blockSize length : Nat) : Prop :=
  blockTotal blockSize length < 0x100000000

theorem countable_of_short {length : Nat} (blockSize : Nat) (short : length < 0x100000000) :
    Countable blockSize length :=
  Nat.lt_of_le_of_lt (Nat.div_le_self length _) short

/-- Transfers shorter than a block count as one block of their own size. -/
theorem countable_iff {blockSize length : Nat} (some : 0 < length) :
    Countable blockSize length ↔ length / min (max blockSize 1) length < 0x100000000 := by
  rw [Countable, blockTotal]
  rcases Nat.le_total (max blockSize 1) length with fits | large
  · rw [Nat.min_eq_left fits]
  · have few : length / max blockSize 1 ≤ 1 := Nat.div_le_of_le_mul (by omega)
    rw [Nat.min_eq_right large, Nat.div_self some]
    omega

theorem plan_zero (blockSize address : Nat) : plan blockSize address 0 = .ok [] := by
  simp [plan]

/-- A transfer that ends within 64 bits can be split. -/
theorem plan_ok_of_le {address length : Nat} (blockSize : Nat)
    (below : address + length ≤ 0x10000000000000000) :
    ∃ spans, plan blockSize address length = .ok spans := by
  rw [plan]
  simp only
  split
  · exact ⟨_, rfl⟩
  · next positive =>
    split
    · exact ⟨_, rfl⟩
    · next rest =>
      -- A tail has bytes, so its address lies below the end.
      have split := Nat.div_add_mod' length (min (max blockSize 1) length)
      rw [Checked.sum_of_lt (by omega)]
      exact ⟨_, rfl⟩

theorem plan_error {blockSize address length : Nat} {stop : Stop}
    (failed : plan blockSize address length = .error stop) :
    stop = .crash .sumOverflow ∧ 0x10000000000000000 < address + length := by
  constructor
  · rw [plan] at failed
    simp only at failed
    split at failed
    · cases failed
    · split at failed
      · cases failed
      · cases formed : Checked.sum address
            (length / min (max blockSize 1) length * min (max blockSize 1) length) with
        | ok behind =>
            rw [formed] at failed
            cases failed
        | error other =>
            rw [formed] at failed
            cases failed
            exact (Checked.sum_error formed).1
  · apply Nat.not_le.mp
    intro below
    obtain ⟨spans, planned⟩ := plan_ok_of_le blockSize below
    rw [planned] at failed
    cases failed

section Planned

variable {blockSize address length : Nat} {spans : List Span}
  (planned : plan blockSize address length = .ok spans)

include planned

/-- The spans of a transfer, with the block that is used. -/
theorem spans_of_pos (some : 0 < length) :
    ∃ block, block = min (max blockSize 1) length ∧ 0 < block ∧
      spans = ⟨address, block, length / block % 0x100000000⟩ ::
        if length % block = 0 then []
        else [⟨address + length / block * block, length % block, 1⟩] := by
  have positive : 0 < min (max blockSize 1) length := by omega
  refine ⟨_, rfl, positive, ?_⟩
  rw [plan] at planned
  simp only [Nat.ne_of_gt positive, if_false] at planned
  by_cases whole : length % min (max blockSize 1) length = 0
  · simp only [whole, if_true] at planned ⊢
    exact (Except.ok.inj planned).symm
  · simp only [whole, if_false] at planned ⊢
    cases formed : Checked.sum address
        (length / min (max blockSize 1) length * min (max blockSize 1) length) with
    | error stop =>
        rw [formed] at planned
        cases planned
    | ok behind =>
        rw [formed] at planned
        obtain ⟨rfl, _⟩ := Checked.sum_ok formed
        exact (Except.ok.inj planned).symm

/-- A transfer from an address of 64 bits is split at addresses of 64 bits. -/
theorem addresses_of_planned (starts : address < 0x10000000000000000) :
    ∀ span ∈ spans, span.address < 0x10000000000000000 := by
  intro span member
  rw [plan] at planned
  simp only at planned
  split at planned
  · cases planned
    cases member
  · split at planned
    · cases planned
      rw [List.mem_singleton.mp member]
      exact starts
    · cases formed : Checked.sum address
          (length / min (max blockSize 1) length * min (max blockSize 1) length) with
      | error stop =>
          rw [formed] at planned
          cases planned
      | ok behind =>
          rw [formed] at planned
          cases planned
          obtain ⟨rfl, below⟩ := Checked.sum_ok formed
          rcases List.mem_cons.mp member with rfl | tail
          · exact starts
          · rw [List.mem_singleton.mp tail]
            exact below

theorem spans_of_zero (none : length = 0) : spans = [] := by
  rw [none, plan_zero] at planned
  exact (Except.ok.inj planned).symm

theorem length_spans : spans.length ≤ 2 := by
  rcases Nat.eq_zero_or_pos length with none | some
  · rw [spans_of_zero planned none]
    exact Nat.zero_le 2
  · obtain ⟨block, _, _, rfl⟩ := spans_of_pos planned some
    split <;> simp

theorem block_size_of_planned {span : Span} (member : span ∈ spans) :
    span.blockSize ≤ max blockSize 1 := by
  rcases Nat.eq_zero_or_pos length with none | some
  · rw [spans_of_zero planned none] at member
    cases member
  · obtain ⟨block, used, positive, rfl⟩ := spans_of_pos planned some
    rw [List.mem_cons] at member
    rcases member with rfl | tail
    · simp only [used]
      omega
    · split at tail
      · cases tail
      · have below := Nat.mod_lt length positive
        rw [List.mem_singleton.mp tail]
        simp only
        omega

/-- Blocks that the count does not show are lost. -/
theorem total_length_spans (some : 0 < length) :
    totalLength spans +
        min (max blockSize 1) length *
          (length / min (max blockSize 1) length / 0x100000000 * 0x100000000) = length := by
  obtain ⟨block, used, _, rfl⟩ := spans_of_pos planned some
  have tail : totalLength (if length % block = 0 then []
      else [⟨address + length / block * block, length % block, 1⟩]) = length % block := by
    split
    · next whole => rw [total_length_nil, whole]
    · simp [Span.length]
  have counted := Nat.mod_add_div (length / block) 0x100000000
  calc
    _ = block * (length / block % 0x100000000) + length % block +
          block * (length / block / 0x100000000 * 0x100000000) := by
      rw [total_length_cons, tail, Span.length, ← used]
    _ = block * (length / block % 0x100000000 + 0x100000000 * (length / block / 0x100000000)) +
          length % block := by
      rw [Nat.mul_add, Nat.mul_comm 0x100000000]
      omega
    _ = length := by
      rw [counted, Nat.div_add_mod]

theorem total_length_spans_iff : totalLength spans = length ↔ Countable blockSize length := by
  rcases Nat.eq_zero_or_pos length with none | some
  · simp [spans_of_zero planned none, none, Countable, blockTotal]
  · have positive : 0 < min (max blockSize 1) length := by omega
    have split := total_length_spans planned some
    rw [countable_iff some]
    constructor
    · intro all
      have lost : min (max blockSize 1) length *
          (length / min (max blockSize 1) length / 0x100000000 * 0x100000000) = 0 := by
        omega
      rcases Nat.mul_eq_zero.mp lost with none | none
      · omega
      · omega
    · intro few
      rw [Nat.div_eq_of_lt few, Nat.zero_mul, Nat.mul_zero, Nat.add_zero] at split
      exact split

/-- The spans of a transfer whose blocks can be counted split it. -/
theorem splits_of_planned (few : Countable blockSize length) : Splits address length spans := by
  have total := (total_length_spans_iff planned).mpr few
  rcases Nat.eq_zero_or_pos length with none | some
  · rw [spans_of_zero planned none, none]
    exact ⟨trivial, rfl, fun span member => nomatch member⟩
  · obtain ⟨block, used, positive, rfl⟩ := spans_of_pos planned some
    have counted : length / block % 0x100000000 = length / block := by
      rw [countable_iff some, ← used] at few
      exact Nat.mod_eq_of_lt few
    have blocks : 0 < length / block := Nat.div_pos (by omega) positive
    have bulk : 0 < block * (length / block) := Nat.mul_pos positive blocks
    rw [counted] at total ⊢
    refine ⟨⟨rfl, ?_⟩, total, ?_⟩
    · split
      · exact trivial
      · exact ⟨by rw [Span.length, Nat.mul_comm], trivial⟩
    · intro span member
      rcases List.mem_cons.mp member with rfl | tail
      · exact bulk
      · split at tail
        · cases tail
        · next rest =>
            rw [List.mem_singleton.mp tail, Span.length, Nat.mul_one]
            exact Nat.pos_of_ne_zero rest

end Planned

end RemoteBoot.BusProgram
