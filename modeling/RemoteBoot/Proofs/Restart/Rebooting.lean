import RemoteBoot.Image.Writer
import RemoteBoot.Proofs.Image.Windows
import RemoteBoot.Proofs.Remote.Attempts
import RemoteBoot.Proofs.Remote.Disturbance
import RemoteBoot.Restart.Controller

/-!
# Rebooting by three writes

A reboot looks up both symbols before it touches the node.  Then it redirects the gate and sends
two signals: three writes in a fixed order, each behind the success of the one before, and no read.
-/

set_option autoImplicit false

namespace RemoteBoot.Restart

open Node

/-- The bytes are a 32-bit gate as the processor decodes it: the halves of the offset are its first
and its last word. -/
structure Jumps (bytes : Bytes) (selector attributes offset : Nat) : Prop where
  length : bytes.length = Gate.size
  selector : Image.field bytes 2 2 = selector
  attributes : Image.field bytes 4 2 = attributes
  offset : Image.field bytes 0 2 + 65536 * Image.field bytes 6 2 = offset

namespace Gate

theorem of_little_endian_half (value : UInt16) :
    Word.ofLittleEndian (Word.littleEndian 2 value.toNat) = value.toNat := by
  rw [Word.ofLittleEndian_littleEndian]
  exact Nat.mod_eq_of_lt value.toNat_lt

/-- The split halves of a handler reassemble, whatever its high bits are. -/
theorem jumps_of_handler (handler : Nat) :
    Jumps (ofHandler handler).toBytes 8 0x8e00 (handler % 0x100000000) := by
  have low := of_little_endian_half (UInt16.ofNat handler)
  have high := of_little_endian_half (UInt16.ofNat (handler / 65536))
  constructor
  · rfl
  · exact (of_little_endian_half codeSelector).trans (by decide)
  · exact (of_little_endian_half interruptAttributes).trans (by decide)
  · change Word.ofLittleEndian (Word.littleEndian 2 (UInt16.ofNat handler).toNat) + 65536 *
      Word.ofLittleEndian (Word.littleEndian 2 (UInt16.ofNat (handler / 65536)).toNat) = _
    rw [low, high, UInt16.toNat_ofNat', UInt16.toNat_ofNat']
    omega

end Gate

namespace Controller

variable {σ ρ : Type} (controller : Controller)

/-- What a reboot writes: the gate of the table at an address, and two interrupt commands. -/
def commands (table handler : Nat) : List Write :=
  [⟨table + 16, (Gate.ofHandler handler).toBytes⟩, ⟨0xfee00000, Word.bytes 0x500⟩,
    ⟨0xfee00000, Word.bytes 0x400⟩]

theorem send_eq (remote : Remote σ) (signal : Signal) :
    signal.send remote = (do
      Engine.note .debug .restart
        ("signal " ++ signal.label ++ " (" ++ Numeral.hex signal.word.toNat ++ ")")
      remote.store 0xfee00000 (Word.bytes signal.word)) := by
  rw [Signal.send, Remote.storeWord, if_neg (by decide)]
  rfl

section Lookups

variable {controller} {fault : Fault}

theorem gate_address_of_table {table : Nat}
    (found : controller.image.symbolPhysical controller.tableSymbol = .ok table) :
    controller.gateAddress = Checked.sum table 16 := by
  rw [gateAddress, found]
  rfl

theorem gate_address_of_unnamed
    (missing : controller.image.symbol controller.tableSymbol = .error fault) :
    controller.gateAddress = .error (.fault fault) := by
  rw [gateAddress, Image.symbolPhysical, missing]
  rfl

theorem gate_address_of_unmapped {address : Nat}
    (named : controller.image.symbol controller.tableSymbol = .ok address)
    (unmapped : controller.image.windowOf? address = none) :
    controller.gateAddress = .error (.fault (.unmappedAddress address)) := by
  have nowhere := Image.physical_address_unmapped unmapped
  rw [gateAddress, Image.symbolPhysical, named]
  change (controller.image.physicalAddress address >>= fun table => Checked.sum table 16) = _
  rw [nowhere]
  rfl

/-- Where the gate of a mapped table lies, if 64 bits can say. -/
theorem gate_address_of_window {address : Nat} {window : Image.Segment}
    (named : controller.image.symbol controller.tableSymbol = .ok address)
    (decides : controller.image.windowOf? address = some window) :
    controller.gateAddress =
      Checked.sum (address - window.virtualAddress + window.physicalAddress) 16 := by
  have translated : controller.image.symbolPhysical controller.tableSymbol =
      Checked.sum (address - window.virtualAddress) window.physicalAddress := by
    rw [Image.symbolPhysical, named]
    exact Image.physical_address_of_window decides
  by_cases fits : address - window.virtualAddress + window.physicalAddress < 0x10000000000000000
  · rw [Checked.sum_of_lt fits] at translated
    exact gate_address_of_table translated
  · rw [Checked.sum_of_le (Nat.not_lt.mp fits)] at translated
    rw [gateAddress, translated, Checked.sum_of_le (by omega)]
    rfl

theorem reboot_without_gate (remote : Remote σ) {stop : Stop}
    (missing : controller.gateAddress = .error stop) :
    controller.reboot remote = Engine.ofChecked (.error stop) := by
  rw [reboot, patch, missing]
  rfl

theorem reboot_without_handler (remote : Remote σ) {address : Nat}
    (placed : controller.gateAddress = .ok address)
    (missing : controller.image.symbol controller.resetSymbol = .error fault) :
    controller.reboot remote = Engine.fail fault := by
  rw [reboot, patch, placed, gate, missing]
  rfl

/-- With both symbols a reboot is nothing but notes and writes. -/
theorem reboot_eq (remote : Remote σ) {table handler : Nat}
    (placed : controller.gateAddress = .ok (table + 16))
    (known : controller.image.symbol controller.resetSymbol = .ok handler) :
    controller.reboot remote = (do
      (do
        Engine.note .info .restart ("patching IDT gate at " ++ Numeral.hex (table + 16) ++ " -> "
          ++ Numeral.hex (Gate.ofHandler handler).handler)
        remote.store (table + 16) (Gate.ofHandler handler).toBytes)
      Signal.send remote .init
      Signal.send remote .nmi) := by
  rw [reboot, patch, placed, gate, known]
  rfl

variable {table handler : Nat} (placed : controller.gateAddress = .ok (table + 16))
  (known : controller.image.symbol controller.resetSymbol = .ok handler)

include placed known

/-- Reboots track each other as soon as the three writes do. -/
theorem reboot_tracks {related : σ → ρ → Prop} {remote : Remote σ} {other : Remote ρ}
    (each : ∀ write ∈ commands table handler, Tracks related
      (remote.store write.address write.bytes) (other.store write.address write.bytes)) :
    Tracks related (controller.reboot remote) (controller.reboot other) := by
  simp only [commands, List.forall_mem_cons] at each
  obtain ⟨gated, first, second, _⟩ := each
  rw [reboot_eq remote placed known, reboot_eq other placed known]
  simp only [send_eq]
  apply ((Tracks.note _ _ _).bind fun _ => gated).bind
  intro patched
  apply ((Tracks.note _ _ _).bind fun _ => first).bind
  intro initialised
  exact (Tracks.note _ _ _).bind fun _ => second

theorem reboot_attempts (remote : Remote σ) :
    Attempts (controller.reboot remote.attempted) (commands table handler) := by
  rw [reboot_eq _ placed known]
  simp only [send_eq]
  have noted : ∀ (level : Level) (origin : Origin) (text : String) (address : Nat) (bytes : Bytes),
      Attempts (Engine.note level origin text >>= fun _ => remote.attempted.store address bytes)
        [⟨address, bytes⟩] :=
    fun level origin text address bytes =>
      (Attempts.note level origin text).bind (Attempts.store remote address bytes)
  exact (noted _ _ _ _ _).bind ((noted _ _ _ _ _).bind (noted _ _ _ _ _))

end Lookups

/-- Nothing was read, and only the gate and the interrupt command register may have changed. -/
structure Spares (table : Nat) (before after : Node) : Prop where
  reads : after.reads = before.reads
  bytes : ∀ place, (place < table + 16 ∨ table + 24 ≤ place) →
    (place < 0xfee00000 ∨ 0xfee00004 ≤ place) →
      after.memory.byteAt place = before.memory.byteAt place

theorem spares_store {τ : Type} (schedule : Schedule τ) {table handler : Nat} {write : Write}
    (listed : write ∈ commands table handler) {before : Node} {place : Node × τ}
    (spared : Spares table before place.1) :
    Spares table before
      ((Node.remote.disturbed schedule).store write.address write.bytes place).node.1 := by
  obtain ⟨node, state⟩ := place
  rcases store_disturbed schedule write.address write.bytes node state with agrees | halts
  · rw [agrees.node]
    cases present : node.absent with
    | true =>
        rw [store_absent present]
        exact spared
    | false =>
        rw [store_present present]
        refine ⟨spared.reads, fun place outside elsewhere => ?_⟩
        rw [← spared.bytes place outside elsewhere]
        apply Memory.byteAt_store_outside
        simp only [commands, List.mem_cons, List.not_mem_nil, or_false] at listed
        rcases listed with rfl | rfl | rfl
        · have length := (Gate.jumps_of_handler handler).length
          rw [Gate.size] at length
          simp only [length]
          omega
        · simpa only [Word.length_bytes] using elsewhere
        · simpa only [Word.length_bytes] using elsewhere
  · rw [halts.node]
    exact spared

variable {controller} in
theorem reboot_spares {table handler : Nat} (placed : controller.gateAddress = .ok (table + 16))
    (known : controller.image.symbol controller.resetSymbol = .ok handler) {τ : Type}
    (schedule : Schedule τ) (node : Node) (state : τ) :
    Spares table node
      (controller.reboot (Node.remote.disturbed schedule) (node, state)).node.1 := by
  have kept : Tracks (Keeping fun place : Node × τ => Spares table node place.1)
      (controller.reboot (Node.remote.disturbed schedule))
      (controller.reboot (Node.remote.disturbed schedule)) := by
    apply reboot_tracks placed known
    intro write listed
    constructor
    · rintro before after ⟨rfl, _⟩
      rfl
    · rintro before after ⟨rfl, spared⟩
      exact ⟨rfl, spares_store schedule listed spared⟩
  apply kept.keeps
  exact ⟨rfl, fun _ _ _ => rfl⟩

theorem symbol_fault {image : Image} {name : Text} {fault : Fault}
    (missing : image.symbol name = .error fault) : fault = .symbolNotFound name := by
  unfold Image.symbol at missing
  split at missing
  · cases missing
  · cases missing
    rfl

/-- Both lookups come before the first write: a symbol that is missing, or a table that is not
mapped, ends a reboot with the node untouched, and so does a table whose gate 64 bits cannot address.
With both of them and a gate in the address space the writes are attempted in order up to the first
that fails, and the reboot succeeds exactly if all three do. -/
theorem reboot_is_three_writes (remote : Remote σ) (node : σ) :
    let image := controller.image
    let left := controller.reboot remote.attempted (node, [])
    (∀ read, controller.reboot { remote with read := read } = controller.reboot remote) ∧
    (∀ fault, image.symbol controller.tableSymbol = .error fault →
      fault = .symbolNotFound controller.tableSymbol ∧
        controller.reboot remote = Engine.fail fault) ∧
    (∀ address, image.symbol controller.tableSymbol = .ok address →
      image.windowOf? address = none →
        controller.reboot remote = Engine.fail (.unmappedAddress address)) ∧
    (∀ address window, image.symbol controller.tableSymbol = .ok address →
      image.windowOf? address = some window →
        0x10000000000000000 ≤
          address - window.virtualAddress + window.physicalAddress + 16 →
            controller.reboot remote = Engine.crash .sumOverflow) ∧
    (∀ table fault, image.symbolPhysical controller.tableSymbol = .ok table →
      table + 16 < 0x10000000000000000 → image.symbol controller.resetSymbol = .error fault →
        fault = .symbolNotFound controller.resetSymbol ∧
          controller.reboot remote = Engine.fail fault) ∧
    ∀ table handler, image.symbolPhysical controller.tableSymbol = .ok table →
      table + 24 ≤ 0x10000000000000000 → image.symbol controller.resetSymbol = .ok handler →
        (left.result = (controller.reboot remote node).result ∧
          left.node.1 = (controller.reboot remote node).node) ∧
        left.node.2.map Attempt.write <+: commands table handler ∧
        (left.result = .ok () ↔ left.node.2 = (commands table handler).map Attempt.granted) ∧
        (∀ stop, left.result = .error stop → ∃ (front : List Write) (lost : Write),
          left.node.2 = front.map Attempt.granted ++ [⟨lost, .error stop⟩]) ∧
        Jumps (Gate.ofHandler handler).toBytes 8 0x8e00 (handler % 0x100000000) ∧
        ∀ {τ : Type} (schedule : Schedule τ) (target : Node) (state : τ), Spares table target
          (controller.reboot (Node.remote.disturbed schedule) (target, state)).node.1 := by
  intro image left
  refine ⟨fun read => rfl, ?_, ?_, ?_, ?_, ?_⟩
  · intro fault missing
    exact ⟨symbol_fault missing, reboot_without_gate remote (gate_address_of_unnamed missing)⟩
  · intro address named unmapped
    exact reboot_without_gate remote (gate_address_of_unmapped named unmapped)
  · intro address window named decides large
    apply reboot_without_gate
    rw [gate_address_of_window named decides, Checked.sum_of_le large]
  · intro table fault found fits missing
    have placed : controller.gateAddress = .ok (table + 16) := by
      rw [gate_address_of_table found, Checked.sum_of_lt fits]
    exact ⟨symbol_fault missing, reboot_without_handler remote placed missing⟩
  · intro table handler found fits known
    have placed : controller.gateAddress = .ok (table + 16) := by
      rw [gate_address_of_table found, Checked.sum_of_lt (by omega)]
    have tracks : Tracks Keeps (controller.reboot remote.attempted) (controller.reboot remote) :=
      reboot_tracks placed known fun write _ => attempted_writes remote write.address write.bytes
    obtain ⟨attempts, kept, order⟩ := (reboot_attempts placed known remote).own node []
    rw [List.nil_append] at kept
    have record : left.node.2 = attempts := kept
    rw [record]
    exact ⟨⟨tracks.result rfl, tracks.node rfl⟩, order.front, order.ok_iff,
      fun stop failed => order.stopped failed, Gate.jumps_of_handler handler,
      fun schedule target state => reboot_spares placed known schedule target state⟩

/-- An image with a gate table and a reset routine. -/
def hypervisor : Image.Blueprint where
  segments := [⟨0xc0100000, 0x100000, [0x90], 0x1000⟩]
  symbols := [(defaultTableSymbol, 0xc0100100), (defaultResetSymbol, 0xc0100040)]

theorem hypervisor_reboots :
    ∃ image, (Image.decode "hypervisor" hypervisor.build).result = .ok image ∧
      let left := reboot remote.attempted ⟨image, defaultTableSymbol, defaultResetSymbol⟩
        (withAgent 0x9f000, [])
      left.node.2 = [.granted ⟨0x100110, [0x40, 0, 8, 0, 0, 0x8e, 0x10, 0xc0]⟩,
        .granted ⟨0xfee00000, [0, 5, 0, 0]⟩, .granted ⟨0xfee00000, [0, 4, 0, 0]⟩] := by
  have known : ((Image.decode "hypervisor" hypervisor.build).result.toOption.map fun image =>
      ((image.symbolPhysical defaultTableSymbol).toOption,
        (image.symbol defaultResetSymbol).toOption,
        (reboot remote.attempted ⟨image, defaultTableSymbol, defaultResetSymbol⟩
          (withAgent 0x9f000, [])).result.toOption)) =
        some (some 0x100100, some 0xc0100040, some ()) := by
    decide +kernel
  obtain ⟨image, decoded, parts⟩ := Option.map_eq_some_iff.mp known
  obtain ⟨found, rest⟩ := Prod.mk.inj parts
  obtain ⟨reset, done⟩ := Prod.mk.inj rest
  refine ⟨image, ok_of_to_option decoded, ?_⟩
  obtain ⟨_, _, _, _, _, writes⟩ := reboot_is_three_writes
    ⟨image, defaultTableSymbol, defaultResetSymbol⟩ remote (withAgent 0x9f000)
  obtain ⟨_, _, succeeds, _⟩ := writes 0x100100 0xc0100040 (ok_of_to_option found) (by decide)
    (ok_of_to_option reset)
  exact succeeds.mp (ok_of_to_option done)

/-- An image with a gate table in the last bytes of the address space and without a reset routine. -/
def tableAtEnd : Image.Blueprint where
  segments := [⟨0xc0100000, 0xfffffffffffffff0, [0x90], 0x10⟩]
  symbols := [(defaultTableSymbol, 0xc0100000)]

/-- The gate is counted from its table before the reset routine is looked up, so a missing routine
does not always end in a fault. -/
theorem missing_routine_not_always_reported :
    ¬ ∀ (name : String) (file : Bytes) (image : Image) (tableSymbol resetSymbol : Text) (node : Node)
      (fault : Fault), (Image.decode name file).result = .ok image →
        image.symbol resetSymbol = .error fault →
          ∃ reported, (reboot remote ⟨image, tableSymbol, resetSymbol⟩ node).result =
            .error (.fault reported) := by
  intro always
  have known : ((Image.decode "hypervisor" tableAtEnd.build).result.toOption.map fun image =>
      ((image.symbol defaultResetSymbol).toOption,
        crash? (reboot remote ⟨image, defaultTableSymbol, defaultResetSymbol⟩ {}).result)) =
        some (none, some .sumOverflow) := by
    decide +kernel
  obtain ⟨image, decoded, parts⟩ := Option.map_eq_some_iff.mp known
  obtain ⟨unnamed, crashed⟩ := Prod.mk.inj parts
  obtain ⟨fault, missing⟩ := error_of_to_option unnamed
  obtain ⟨reported, failed⟩ := always "hypervisor" _ image defaultTableSymbol defaultResetSymbol {}
    fault (ok_of_to_option decoded) missing
  rw [crash_eq_some_iff.mp crashed] at failed
  cases failed

end Controller
end RemoteBoot.Restart
