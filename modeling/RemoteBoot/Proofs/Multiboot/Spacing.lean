import Mathlib.Order.Bounds.Defs
import RemoteBoot.Proofs.Multiboot.Atomicity
import RemoteBoot.Proofs.Multiboot.Sums

/-!
# Modules keep apart

A push puts its payload at the cursor and moves the cursor to the next page.  As long as the cursor
is not set back, each payload lies behind all earlier ones, so none is written over.  A loader that
is not armed refuses a push for its addresses exactly if the start or the end needs more than 32 bits;
64 bits hold every number that is formed on the way, since no vector holds 2^63 bytes.
-/

set_option autoImplicit false

namespace RemoteBoot.Multiboot

open Node Held

structure Pushed where
  module : Module
  payload : Bytes

def Module.Covers (module : Module) (place : Nat) : Prop :=
  module.start ≤ place ∧ place < module.stop

/-- A run of pushes that succeed.  Between them the cursor may be set, but not backwards. -/
inductive Onward : Held Node → List Pushed → Held Node → Prop where
  | done (held : Held Node) : Onward held [] held
  | setAddress {held after : Held Node} {pushed : List Pushed} (address : Nat)
      (onward : held.loader.cursor ≤ address)
      (moved : (perform remote (.setAddress address) held).result = .ok .moved)
      (later : Onward (perform remote (.setAddress address) held).node pushed after) :
      Onward held pushed after
  | push {held after : Held Node} {pushed : List Pushed} {module : Module} (payload : Bytes)
      (commandLine : Text)
      (done : (perform remote (.push payload commandLine) held).result = .ok (.pushed module))
      (later : Onward (perform remote (.push payload commandLine) held).node pushed after) :
      Onward held (⟨module, payload⟩ :: pushed) after

namespace Loader

theorem is_least_page (value : Nat) :
    IsLeast {next | 0x1000 ∣ next ∧ value ≤ next} (page value) := by
  unfold page
  constructor
  · exact ⟨Nat.dvd_mul_left _ _, by omega⟩
  · rintro next ⟨⟨pages, rfl⟩, above⟩
    omega

theorem page_le_of_lt {value : Nat} (fits : value < 0x100000000) : page value ≤ 0x100000000 :=
  (is_least_page value).2 ⟨by decide, Nat.le_of_lt fits⟩

end Loader

/-- Clearing the low twelve bits of a 64-bit word rounds down to a page. -/
theorem and_page_mask {value : Nat} (small : value < 0x10000000000000000) :
    value &&& 0xfffffffffffff000 = value / 0x1000 * 0x1000 := by
  have mask : 0xfffffffffffff000 = (2 ^ 52 - 1) * 2 ^ 12 := rfl
  have page : 0x1000 = 2 ^ 12 := rfl
  apply Nat.eq_of_testBit_eq
  intro index
  rw [mask, page, Nat.testBit_and, Nat.testBit_mul_two_pow, Nat.testBit_mul_two_pow,
    Nat.testBit_two_pow_sub_one, Nat.testBit_div_two_pow]
  by_cases low : index < 12
  · simp [Nat.not_le.mpr low]
  · rw [Nat.sub_add_cancel (Nat.not_lt.mp low)]
    by_cases high : index < 64
    · simp [Nat.not_lt.mp low, show index - 12 < 52 by omega]
    · have bits : 2 ^ 64 ≤ 2 ^ index := Nat.pow_le_pow_right (by decide) (Nat.not_lt.mp high)
      rw [Nat.testBit_lt_two_pow (Nat.lt_of_lt_of_le small bits), Bool.false_and, Bool.and_false]

/-- Rounding up to a multiple of a power of two, in 64 bits. -/
def maskUp (step value : UInt64) : UInt64 :=
  (value + step - 1) &&& ~~~(step - 1)

theorem to_nat_of_le {value : Nat} (small : value ≤ 0x100000000) :
    (UInt64.ofNat value).toNat = value :=
  UInt64.toNat_ofNat_of_lt' (Nat.lt_of_le_of_lt small (by decide))

theorem mask_up_eq_page {stop : Nat} (small : stop ≤ 0x100000000) :
    (maskUp 0x1000 (UInt64.ofNat stop)).toNat = Loader.page stop := by
  have sum : (UInt64.ofNat stop + 0x1000 - 1).toNat = stop + 0x1000 - 1 := by
    have step : (0x1000 : UInt64).toNat = 0x1000 := rfl
    have one : (1 : UInt64).toNat = 1 := rfl
    rw [UInt64.toNat_sub, UInt64.toNat_add, to_nat_of_le small, step, one]
    omega
  have mask : (~~~(0x1000 - 1) : UInt64).toNat = 0xfffffffffffff000 := by decide
  rw [maskUp, UInt64.toNat_and, sum, mask, and_page_mask (by omega)]
  rfl

section Requests

variable {held : Held Node} {payload : Bytes} {commandLine : Text} {module : Module}

theorem cursor_of_moved {address : Nat}
    (moved : (perform remote (.setAddress address) held).result = .ok .moved) :
    (perform remote (.setAddress address) held).node =
      ⟨held.node, { held.loader with cursor := address }⟩ := by
  have unarmed := (moves_of_performed moved).of_set_address
  rw [perform_eq_settle, settle, carryOut, Loader.set_address_unarmed unarmed]
  rfl

/-- What a push that succeeds does to loader and node. -/
structure Places (held : Held Node) (payload : Bytes) (module : Module) (after : Held Node) :
    Prop where
  present : held.node.absent = false
  start : module.start = held.loader.cursor
  stop : module.stop = module.start + payload.length
  fits : module.stop < 0x100000000
  loader : after.loader = held.loader.taking module
  took : held.node.Took [⟨held.loader.cursor, payload⟩] after.node

theorem places_of_ok
    (done : (perform remote (.push payload commandLine) held).result = .ok (.pushed module)) :
    Places held payload module (perform remote (.push payload commandLine) held).node := by
  have node := node_perform remote held.loader held.node (.push payload commandLine)
  rw [carry_out_push] at node
  obtain ⟨unarmed, fits, rfl, loader⟩ := (moves_of_performed done).of_push
  cases present : held.node.absent with
  | false =>
      have returns := Loader.returns_push present unarmed commandLine fits
      refine ⟨present, rfl, rfl, fits, loader, ?_⟩
      rw [node]
      exact returns.took
  | true =>
      -- A node that is gone takes no payload.
      obtain ⟨stop, failed⟩ := (Loader.stops_push present unarmed commandLine fits).result
      have result := result_perform remote held.loader held.node (.push payload commandLine)
      rw [carry_out_push] at result
      simp only [failed] at result
      cases done.symm.trans result

end Requests

structure Pushed.Lies (cursor : Nat) (memory : Memory) (item : Pushed) : Prop where
  behind : cursor ≤ item.module.start
  sized : item.module.stop = item.module.start + item.payload.length
  fits : item.module.stop < 0x100000000
  shown : memory.Shows item.module.start item.payload

theorem Pushed.Lies.of_le {cursor lower : Nat} {memory : Memory} {item : Pushed}
    (lies : item.Lies cursor memory) (below : lower ≤ cursor) : item.Lies lower memory :=
  ⟨Nat.le_trans below lies.behind, lies.sized, lies.fits, lies.shown⟩

/-- A run of pushes keeps its modules apart and in order, none of its payloads is lost, and nothing
in front of the cursor is touched. -/
structure Spaced (held : Held Node) (pushed : List Pushed) (after : Held Node) : Prop where
  modules : after.loader.modules = held.loader.modules ++ pushed.map Pushed.module
  ordered : pushed.Pairwise fun first later => first.module.stop ≤ later.module.start
  lies : ∀ item ∈ pushed, item.Lies held.loader.cursor after.node.memory
  kept : ∀ place, place < held.loader.cursor →
    after.node.memory.byteAt place = held.node.memory.byteAt place
  absent : after.node.absent = held.node.absent
  present : pushed ≠ [] → held.node.absent = false

namespace Spaced

variable {held middle after : Held Node} {pushed : List Pushed}

theorem refl (held : Held Node) : Spaced held [] held := by
  constructor <;> simp

theorem set_address {address : Nat} (onward : held.loader.cursor ≤ address)
    (moved : middle = ⟨held.node, { held.loader with cursor := address }⟩)
    (later : Spaced middle pushed after) : Spaced held pushed after := by
  subst moved
  constructor
  · exact later.modules
  · exact later.ordered
  · intro item listed
    exact (later.lies item listed).of_le onward
  · intro place below
    exact later.kept place (Nat.lt_of_lt_of_le below onward)
  · exact later.absent
  · exact later.present

theorem push {payload : Bytes} {module : Module} (placed : Places held payload module middle)
    (later : Spaced middle pushed after) : Spaced held (⟨module, payload⟩ :: pushed) after := by
  have start := placed.start
  have stop := placed.stop
  have cursor : module.stop ≤ middle.loader.cursor := by
    rw [placed.loader]
    exact (Loader.is_least_page module.stop).1.2
  have memory : middle.node.memory = held.node.memory.store held.loader.cursor payload :=
    placed.took.memory
  -- The payload lies in front of the new cursor, where nothing changes any more.
  have shown : after.node.memory.Shows module.start payload := by
    have written := held.node.memory.shows_store_self held.loader.cursor payload
    rw [← memory, ← start] at written
    rw [Memory.shows_iff] at written ⊢
    intro offset inside
    rw [← written offset inside]
    apply later.kept
    omega
  constructor
  · rw [later.modules, placed.loader, Loader.taking, Loader.accept, List.append_assoc]
    rfl
  · refine List.pairwise_cons.mpr ⟨?_, later.ordered⟩
    intro item listed
    exact Nat.le_trans cursor (later.lies item listed).behind
  · have first : held.loader.cursor ≤ module.start := Nat.le_of_eq start.symm
    refine List.forall_mem_cons.mpr ⟨⟨first, stop, placed.fits, shown⟩, ?_⟩
    intro item listed
    apply (later.lies item listed).of_le
    omega
  · intro place below
    rw [later.kept place (by omega), memory]
    exact held.node.memory.byteAt_store_outside (Or.inl below)
  · rw [later.absent, placed.took.absent]
  · intro _
    exact placed.present

theorem of_onward (run : Onward held pushed after) : Spaced held pushed after := by
  induction run with
  | done held => exact refl held
  | setAddress address onward moved later ih => exact ih.set_address onward (cursor_of_moved moved)
  | push payload commandLine done later ih => exact ih.push (places_of_ok done)

theorem read_back (spaced : Spaced held pushed after) {item : Pushed} (listed : item ∈ pushed) :
    (remote.fetch item.module.start item.payload.length after.node).result = .ok item.payload := by
  have present : after.node.absent = false := by
    rw [spaced.absent, spaced.present (List.ne_nil_of_mem listed)]
  rw [fetch_present present, (spaced.lies item listed).shown]

end Spaced

/-- Where a module of a payload ends and where the next one may start, with all sums in 64 bits. -/
structure Paged (payload : Bytes) (module : Module) (after : Held Node) : Prop where
  fits : module.stop < 0x100000000
  sum : (UInt64.ofNat module.start + UInt64.ofNat payload.length).toNat = module.stop
  least : IsLeast {page | 0x1000 ∣ page ∧ module.stop ≤ page} after.loader.cursor
  below : after.loader.cursor ≤ 0x100000000
  masked : (maskUp 0x1000 (UInt64.ofNat module.stop)).toNat = after.loader.cursor
  next : ∀ other line following,
    (perform remote (.push other line) after).result = .ok (.pushed following) →
      0x1000 ∣ following.start

theorem paged_of_places {held after : Held Node} {payload : Bytes} {module : Module}
    (placed : Places held payload module after) : Paged payload module after := by
  have fits := placed.fits
  have stop := placed.stop
  have cursor : after.loader.cursor = Loader.page module.stop := by
    rw [placed.loader, Loader.taking, Loader.accept]
  have least := Loader.is_least_page module.stop
  rw [← cursor] at least
  refine ⟨fits, ?_, least, ?_, ?_, ?_⟩
  · rw [UInt64.toNat_add, to_nat_of_le (by omega), to_nat_of_le (by omega)]
    omega
  · rw [cursor]
    exact Loader.page_le_of_lt fits
  · rw [cursor]
    exact mask_up_eq_page (Nat.le_of_lt fits)
  · intro other line following done
    rw [(places_of_ok done).start]
    exact least.1.1

theorem out_of_range_iff {σ : Type} {remote : Remote σ} (plain : remote.FailsInTransport)
    {held : Held σ} (unarmed : held.loader.phase ≠ .armed) {payload : Bytes}
    (holdable : payload.length < 0x8000000000000000) (commandLine : Text) :
    (∃ address, (perform remote (.push payload commandLine) held).result =
        .error (.fault (.addressOutOfRange address))) ↔
      0x100000000 ≤ held.loader.cursor ∨ 0x100000000 ≤ held.loader.cursor + payload.length := by
  constructor
  · rintro ⟨address, failed⟩
    have other : ¬ (Fault.addressOutOfRange address).InTransport := by
      intro transport
      cases transport
    cases grounds_of_failed plain other failed with
    | start _ _ _ large => exact Or.inl large
    | stop _ _ _ _ large _ => exact Or.inr large
  · intro large
    by_cases start : held.loader.cursor < 0x100000000
    · have stop : 0x100000000 ≤ held.loader.cursor + payload.length := by omega
      have formed : held.loader.cursor + payload.length < 0x10000000000000000 := by omega
      have refused := refused_of_grounds (.stop unarmed payload commandLine start stop formed) remote
      exact ⟨_, congrArg Outcome.result (refused held.node)⟩
    · have refused := refused_of_grounds
        (.start unarmed payload commandLine (Nat.not_lt.mp start)) remote
      exact ⟨_, congrArg Outcome.result (refused held.node)⟩

theorem push_never_crashes {σ : Type} {remote : Remote σ} (smooth : remote.CrashesIn fun _ => False)
    (held : Held σ) {payload : Bytes} (holdable : payload.length < 0x8000000000000000)
    (commandLine : Text) (crash : Crash) :
    (perform remote (.push payload commandLine) held).result ≠ .error (.crash crash) := by
  intro crashed
  have trips : Trips (fun _ => False)
      (carryOut remote held.loader (.push payload commandLine)) :=
    (Loader.push_trips smooth (fun large => absurd holdable (Nat.not_lt.mpr large)) held.loader
      commandLine).bind fun _ => Trips.pure _
  have result := result_perform remote held.loader held.node (.push payload commandLine)
  rw [show Held.mk held.node held.loader = held from rfl, crashed] at result
  cases ended : (carryOut remote held.loader (.push payload commandLine) held.node).result with
  | ok value =>
      rw [ended] at result
      cases result
  | error stop =>
      rw [ended] at result
      cases result
      exact trips.own held.node crash ended

theorem pushed_of_fits {held : Held Node} (present : held.node.absent = false)
    (unarmed : held.loader.phase ≠ .armed) {payload : Bytes} (commandLine : Text)
    (fits : held.loader.cursor + payload.length < 0x100000000) :
    (perform remote (.push payload commandLine) held).result =
      .ok (.pushed (held.loader.nextModule payload commandLine)) := by
  have result := result_perform remote held.loader held.node (.push payload commandLine)
  rw [carry_out_push] at result
  simp only [(Loader.returns_push present unarmed commandLine fits).result] at result
  exact result

/-- The modules of a run of pushes lie apart and in order with their payloads intact, every push
moves the cursor to the next page, and a push is refused for its addresses exactly if one of them
needs more than 32 bits, and on a node that is there succeeds otherwise.  No sum of a push overflows
for a payload that a vector holds. -/
theorem pushes_keep_apart :
    (∀ held pushed after, Onward held pushed after →
      after.loader.modules = held.loader.modules ++ pushed.map Pushed.module ∧
        (pushed.Pairwise fun first later => first.module.stop ≤ later.module.start ∧
          ∀ place, first.module.Covers place → ¬ later.module.Covers place) ∧
        ∀ item ∈ pushed, item.module.stop = item.module.start + item.payload.length ∧
          item.module.stop < 0x100000000 ∧
          (remote.fetch item.module.start item.payload.length after.node).result =
            .ok item.payload) ∧
    (∀ held payload commandLine module,
      (perform remote (.push payload commandLine) held).result = .ok (.pushed module) →
        module.start = held.loader.cursor ∧
          Paged payload module (perform remote (.push payload commandLine) held).node) ∧
    (∀ held : Held Node, held.node.absent = false → held.loader.phase ≠ .armed →
      ∀ payload commandLine, held.loader.cursor + payload.length < 0x100000000 →
        ∃ module,
          (perform remote (.push payload commandLine) held).result = .ok (.pushed module)) ∧
    ∀ {σ : Type} (remote : Remote σ), remote.FailsInTransport → ∀ held : Held σ,
      ∀ payload commandLine, payload.length < 0x8000000000000000 →
        (held.loader.phase ≠ .armed →
          ((∃ address, (perform remote (.push payload commandLine) held).result =
              .error (.fault (.addressOutOfRange address))) ↔
            0x100000000 ≤ held.loader.cursor ∨
              0x100000000 ≤ held.loader.cursor + payload.length)) ∧
        (remote.CrashesIn (fun _ => False) → ∀ crash,
          (perform remote (.push payload commandLine) held).result ≠ .error (.crash crash)) := by
  refine ⟨?_, ?_, ?_, ?_⟩
  · intro held pushed after run
    have spaced := Spaced.of_onward run
    refine ⟨spaced.modules, ?_, ?_⟩
    · apply spaced.ordered.imp
      intro first later ordered
      refine ⟨ordered, ?_⟩
      rintro place ⟨_, before⟩ ⟨behind, _⟩
      omega
    · intro item listed
      have lies := spaced.lies item listed
      exact ⟨lies.sized, lies.fits, spaced.read_back listed⟩
  · intro held payload commandLine module done
    have placed := places_of_ok done
    exact ⟨placed.start, paged_of_places placed⟩
  · intro held present unarmed payload commandLine fits
    exact ⟨_, pushed_of_fits present unarmed commandLine fits⟩
  · intro σ remote plain held payload commandLine holdable
    refine ⟨fun unarmed => out_of_range_iff plain unarmed holdable commandLine, ?_⟩
    intro smooth
    exact push_never_crashes smooth held holdable commandLine

def beginningAt (cursor : Nat) : Held Node :=
  ⟨Node.withAgent 0x9f000, ⟨0x9f000, .idle, cursor, []⟩⟩

/-- Three bytes from an odd address on, an empty payload, and one byte behind a new address keep
apart; the last address below 4 GiB takes an empty payload and refuses a byte. -/
theorem odd_run_keeps_apart :
    (∃ pushed after, Onward (beginningAt 0x1000001) pushed after ∧
      after.loader.modules = [⟨0x1000001, 0x1000004, "k one".toList⟩,
        ⟨0x1001000, 0x1001000, "empty".toList⟩, ⟨0x1001010, 0x1001011, "m".toList⟩] ∧
      pushed.Pairwise fun first later => first.module.stop ≤ later.module.start ∧
        ∀ place, first.module.Covers place → ¬ later.module.Covers place) ∧
    (∃ address,
      (perform remote (.push [7] "m".toList) (beginningAt 0xffffffff)).result =
        .error (.fault (.addressOutOfRange address))) ∧
    Paged [] ⟨0xffffffff, 0xffffffff, "m".toList⟩
      (perform remote (.push [] "m".toList) (beginningAt 0xffffffff)).node := by
  obtain ⟨spaced, paged, _, refused⟩ := pushes_keep_apart
  refine ⟨?_, ?_, ?_⟩
  · let first : Held Node :=
      (perform remote (.push [1, 2, 3] "k one".toList) (beginningAt 0x1000001)).node
    let second : Held Node := (perform remote (.push [] "empty".toList) first).node
    let third : Held Node := (perform remote (.setAddress 0x1001010) second).node
    have last : Onward third [⟨⟨0x1001010, 0x1001011, "m".toList⟩, [7]⟩] _ :=
      .push [7] "m".toList (ok_of_to_option (by decide +kernel)) (.done _)
    have moved := Onward.setAddress 0x1001010 (by decide +kernel)
      (ok_of_to_option (by decide +kernel)) last
    have empty : Onward first (⟨⟨0x1001000, 0x1001000, "empty".toList⟩, []⟩ :: _) _ :=
      .push [] "empty".toList (ok_of_to_option (by decide +kernel)) moved
    have run : Onward (beginningAt 0x1000001)
        (⟨⟨0x1000001, 0x1000004, "k one".toList⟩, [1, 2, 3]⟩ :: _) _ :=
      .push [1, 2, 3] "k one".toList (ok_of_to_option (by decide +kernel)) empty
    have result := spaced _ _ _ run
    exact ⟨_, _, run, result.1, result.2.1⟩
  · apply ((refused remote node_fails_in_transport (beginningAt 0xffffffff) [7] "m".toList
      (by decide)).1 (by decide)).mpr
    decide
  · have done : (perform remote (.push [] "m".toList) (beginningAt 0xffffffff)).result =
        .ok (.pushed ⟨0xffffffff, 0xffffffff, "m".toList⟩) :=
      ok_of_to_option (by decide +kernel)
    exact (paged _ _ _ _ done).2

end RemoteBoot.Multiboot
