import RemoteBoot.Multiboot.Loader
import RemoteBoot.Proofs.Node.Transfers

/-!
# What the operations of a loader do

Each operation of an open loader as the transfers it makes and the loader it returns, on any remote.
Arming falls into two parts: `publish` makes everything known to the agent, and `signal` is the one
write that the agent waits for.  It can also be cut in front of its first word: `announce` ends with
the read of the control block, and `conclude` writes the words.
-/

set_option autoImplicit false

namespace RemoteBoot.Multiboot

variable {σ : Type}

theorem narrow_of_lt {address : Nat} (fits : address < 0x100000000) :
    narrow address = .ok (UInt32.ofNat address) := by
  rw [narrow, if_pos fits]

theorem narrow_of_le {address : Nat} (large : 0x100000000 ≤ address) :
    narrow address = .error (.addressOutOfRange address) := by
  rw [narrow, if_neg (Nat.not_lt.mpr large)]

theorem narrow_ok {address : Nat} {word : UInt32} (narrowed : narrow address = .ok word) :
    word = UInt32.ofNat address ∧ address < 0x100000000 := by
  by_cases fits : address < 0x100000000
  · rw [narrow_of_lt fits] at narrowed
    cases narrowed
    exact ⟨rfl, fits⟩
  · rw [narrow_of_le (Nat.not_lt.mp fits)] at narrowed
    cases narrowed

theorem to_nat_of_fits {address : Nat} (fits : address < 0x100000000) :
    (UInt32.ofNat address).toNat = address :=
  UInt32.toNat_ofNat_of_lt' fits

namespace Loader

/-- A loader that still takes modules, and is idle as long as it has none. -/
structure Open (loader : Loader) : Prop where
  unarmed : loader.phase ≠ .armed
  idle_iff : loader.phase = .idle ↔ loader.modules = []

theorem open_begin (controlBlock cursor : Nat) : Open ⟨controlBlock, .idle, cursor, []⟩ := by
  constructor
  · intro armed
    cases armed
  · simp

/-- The first page boundary that is not below an address. -/
def page (address : Nat) : Nat :=
  (address + 0xfff) / 0x1000 * 0x1000

theorem align_up_of_lt {address : Nat} (fits : address < 0x100000000) :
    alignUp alignment address = .ok (page address) := by
  have beyond : address + alignment < 0x10000000000000000 := by
    rw [alignment]
    omega
  rw [alignUp, Checked.sum_of_lt beyond]
  rfl

/-- The loader after a module that fits was pushed. -/
def taking (loader : Loader) (module : Module) : Loader :=
  loader.accept module (page module.stop)

theorem open_taking (loader : Loader) (module : Module) : Open (loader.taking module) := by
  constructor
  · intro armed
    cases armed
  · simp [taking, accept]

theorem ensure_open_of_unarmed {loader : Loader} (unarmed : loader.phase ≠ .armed) :
    loader.ensureOpen = .ok () := by
  rw [ensureOpen, if_neg unarmed]

theorem set_address_unarmed {loader : Loader} (unarmed : loader.phase ≠ .armed) (address : Nat) :
    (loader.setAddress address : Engine σ Loader) = (do
      Engine.note .debug .loader ("load address " ++ Numeral.hex address)
      pure { loader with cursor := address }) := by
  rw [setAddress, ensure_open_of_unarmed unarmed, Engine.of_except_ok, pure_bind]

def nextModule (loader : Loader) (payload : Bytes) (commandLine : Text) : Module :=
  ⟨loader.cursor, loader.cursor + payload.length, commandLine⟩

theorem push_of_fits (remote : Remote σ) {loader : Loader} (unarmed : loader.phase ≠ .armed)
    {payload : Bytes} (commandLine : Text)
    (fits : loader.cursor + payload.length < 0x100000000) :
    loader.push remote payload commandLine = (do
      remote.store loader.cursor payload
      Engine.note .info .loader
        (moduleNote loader.modules.length (loader.nextModule payload commandLine))
      pure (loader.taking (loader.nextModule payload commandLine),
        loader.nextModule payload commandLine)) := by
  have start : loader.cursor < 0x100000000 := by omega
  have sum : Checked.sum loader.cursor payload.length = .ok (loader.cursor + payload.length) :=
    Checked.sum_of_lt (by omega)
  simp only [push, ensure_open_of_unarmed unarmed, narrow_of_lt start, sum, narrow_of_lt fits,
    align_up_of_lt fits, Engine.of_except_ok, Engine.of_checked_ok, pure_bind, nextModule, taking]

/-- A payload that 32 bits cannot hold is refused before it is written. -/
theorem push_of_large (remote : Remote σ) {loader : Loader} (unarmed : loader.phase ≠ .armed)
    {payload : Bytes} (commandLine : Text)
    (large : 0x100000000 ≤ loader.cursor + payload.length) :
    ∃ stop, loader.push remote payload commandLine = Engine.ofChecked (.error stop) := by
  by_cases start : loader.cursor < 0x100000000
  · simp only [push, ensure_open_of_unarmed unarmed, narrow_of_lt start, Engine.of_except_ok,
      pure_bind]
    cases sum : Checked.sum loader.cursor payload.length with
    | error stop => exact ⟨stop, rfl⟩
    | ok total =>
        obtain ⟨rfl, _⟩ := Checked.sum_ok sum
        simp only [Engine.of_checked_ok, pure_bind, narrow_of_le large]
        exact ⟨_, rfl⟩
  · simp only [push, ensure_open_of_unarmed unarmed, narrow_of_le (Nat.not_lt.mp start),
      Engine.of_except_ok, pure_bind]
    exact ⟨_, rfl⟩

theorem returns_push {node : Node} (present : node.absent = false) {loader : Loader}
    (unarmed : loader.phase ≠ .armed) {payload : Bytes} (commandLine : Text)
    (fits : loader.cursor + payload.length < 0x100000000) :
    Node.Returns (loader.push Node.remote payload commandLine) node
      (loader.taking (loader.nextModule payload commandLine),
        loader.nextModule payload commandLine)
      [⟨loader.cursor, payload⟩] := by
  rw [push_of_fits Node.remote unarmed commandLine fits]
  apply (Node.returns_store present _ _).bind
  intro stored tookStore
  apply (Node.returns_note _ _ _ stored).bind
  intro noted tookNote
  exact Node.returns_pure _ noted

theorem stops_push {node : Node} (gone : node.absent = true) {loader : Loader}
    (unarmed : loader.phase ≠ .armed) {payload : Bytes} (commandLine : Text)
    (fits : loader.cursor + payload.length < 0x100000000) :
    Node.Stops (loader.push Node.remote payload commandLine) node [] := by
  rw [push_of_fits Node.remote unarmed commandLine fits]
  have stopped : Node.Stops (Node.remote.store loader.cursor payload) node [] := by
    constructor <;> rw [Node.store_absent gone]
    · exact ⟨_, rfl⟩
    · exact Node.Took.refl node
  exact stopped.bind _

theorem descriptor_address_ok {loader : Loader} {base : Nat}
    (formed : loader.descriptorAddress = .ok base) : base = loader.controlBlock + 0x4000 :=
  (Checked.sum_ok formed).1

/-- A block that could be made has its place. -/
theorem descriptor_block_ok {loader : Loader} {block : Bytes}
    (made : loader.descriptorBlock = .ok block) :
    loader.descriptorAddress = .ok (loader.controlBlock + 0x4000) ∧
      Module.block (loader.controlBlock + 0x4000) loader.modules = .ok block := by
  rw [descriptorBlock] at made
  cases formed : loader.descriptorAddress with
  | error stop =>
      rw [formed] at made
      cases made
  | ok base =>
      rw [formed] at made
      obtain rfl := descriptor_address_ok formed
      exact ⟨rfl, made⟩

/-- A block that is refused for an address in it has its place too. -/
theorem descriptor_address_of_refused {loader : Loader} {fault : Fault}
    (refused : loader.descriptorBlock = .error (.fault fault)) :
    loader.descriptorAddress = .ok (loader.controlBlock + 0x4000) := by
  rw [descriptorBlock] at refused
  rcases error_of_bind_error refused with failed | ⟨base, formed, _⟩
  · cases (Checked.sum_error failed).1
  · rw [formed, descriptor_address_ok formed]

/-- Arming up to the go signal: descriptor block, flags, address of the descriptors. -/
def publish (remote : Remote σ) (loader : Loader) : Engine σ Unit :=
  match loader.phase with
  | .armed => Engine.fail .alreadyArmed
  | .idle => Engine.fail .noModules
  | .pushing => do
    let base ← Engine.ofChecked loader.descriptorAddress
    let block ← Engine.ofChecked loader.descriptorBlock
    Engine.note .info .loader ("add modules at " ++ Numeral.hex base)
    remote.store base block
    let control ← ControlBlock.fetch remote loader.controlBlock
    remote.storeWord (loader.controlBlock + ControlBlock.flagsOffset) control.withMods.flags
    let address ← Engine.ofExcept (narrow base)
    remote.storeWord (loader.controlBlock + ControlBlock.modsAddressOffset) address

/-- The rest of arming: the word that the agent waits for. -/
def signal (remote : Remote σ) (loader : Loader) : Engine σ Loader := do
  Engine.note .info .loader "Boot!"
  let count := UInt32.ofNat loader.modules.length
  remote.storeWord (loader.controlBlock + ControlBlock.modsCountOffset) count
  if count = 1 then
    Engine.note .warn .loader "only one module loaded; the node may have been running already"
  pure { loader with phase := .armed }

theorem arm_eq_publish_signal (remote : Remote σ) (loader : Loader) :
    loader.arm remote = (do
      loader.publish remote
      loader.signal remote) := by
  unfold arm publish signal
  cases loader.phase with
  | armed => simp only [Engine.fail_bind]
  | idle => simp only [Engine.fail_bind]
  | pushing => simp only [bind_assoc]

/-- Arming in front of its first word: the descriptor block is written and the control block read. -/
def announce (remote : Remote σ) (loader : Loader) : Engine σ ControlBlock :=
  match loader.phase with
  | .armed => Engine.fail .alreadyArmed
  | .idle => Engine.fail .noModules
  | .pushing => do
    let base ← Engine.ofChecked loader.descriptorAddress
    let block ← Engine.ofChecked loader.descriptorBlock
    Engine.note .info .loader ("add modules at " ++ Numeral.hex base)
    remote.store base block
    ControlBlock.fetch remote loader.controlBlock

/-- The words of arming: flags, address of the descriptors, go signal. -/
def conclude (remote : Remote σ) (loader : Loader) (control : ControlBlock) : Engine σ Loader := do
  remote.storeWord (loader.controlBlock + ControlBlock.flagsOffset) control.withMods.flags
  let address ← Engine.ofExcept (narrow (loader.controlBlock + 0x4000))
  remote.storeWord (loader.controlBlock + ControlBlock.modsAddressOffset) address
  loader.signal remote

theorem arm_eq_announce_conclude (remote : Remote σ) (loader : Loader) :
    loader.arm remote = (do
      let control ← loader.announce remote
      loader.conclude remote control) := by
  rw [arm_eq_publish_signal]
  unfold publish announce conclude
  cases loader.phase with
  | armed => simp only [Engine.fail_bind]
  | idle => simp only [Engine.fail_bind]
  | pushing =>
      cases formed : loader.descriptorAddress with
      | error stop => simp only [Engine.of_checked_error_bind]
      | ok base =>
          obtain rfl := descriptor_address_ok formed
          simp only [Engine.of_checked_ok, pure_bind, bind_assoc]

end Loader
end RemoteBoot.Multiboot
