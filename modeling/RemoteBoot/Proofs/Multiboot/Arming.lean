import RemoteBoot.Proofs.Multiboot.DescriptorBlock

/-!
# Arming a node in memory

What publishing and signalling write on a node that is there.  Publishing either makes its three
writes and returns, or it stops with the descriptor block at most; the go signal is one write.
-/

set_option autoImplicit false

namespace RemoteBoot.Multiboot.Loader

open Node

/-- What publishing writes: descriptor block, flags with the bit of the modules added, address of
the descriptors.  The flags are those that memory holds behind the descriptor block. -/
def publication (loader : Loader) (memory : Memory) (block : Bytes) : List Write :=
  [⟨loader.controlBlock + 0x4000, block⟩,
    ⟨loader.controlBlock + ControlBlock.flagsOffset,
      Word.bytes ((memory.store (loader.controlBlock + 0x4000) block).peekWord loader.controlBlock
        ||| Flag.mods)⟩,
    ⟨loader.controlBlock + ControlBlock.modsAddressOffset,
      Word.bytes (UInt32.ofNat (loader.controlBlock + 0x4000))⟩]

/-- The write that the agent waits for. -/
def goSignal (loader : Loader) : Write :=
  ⟨loader.controlBlock + ControlBlock.modsCountOffset,
    Word.bytes (UInt32.ofNat loader.modules.length)⟩

/-- Memory behind arming: a block, and three words of a control block that end in front of it. -/
def armed (memory : Memory) (controlBlock base : Nat) (block : Bytes)
    (flags address count : UInt32) : Memory :=
  (((memory.store base block).store controlBlock (Word.bytes flags)).store (controlBlock + 24)
    (Word.bytes address)).store (controlBlock + 20) (Word.bytes count)

section Armed

variable (memory : Memory) {controlBlock base : Nat} {block : Bytes}
  (flags address count : UInt32)

theorem count_of_armed :
    (armed memory controlBlock base block flags address count).peekWord (controlBlock + 20) =
      count :=
  Memory.peek_word_store_self _ _ count

end Armed

/-- The descriptor block lies behind the control block, so it does not change the flags. -/
theorem flags_of_block (loader : Loader) (memory : Memory) (block : Bytes) :
    (memory.store (loader.controlBlock + 0x4000) block).peekWord loader.controlBlock =
      memory.peekWord loader.controlBlock :=
  memory.peek_word_store_apart (Or.inl (Nat.add_le_add_left (by decide) _))

theorem publication_eq (loader : Loader) (memory : Memory) (block : Bytes) :
    loader.publication memory block =
      [⟨loader.controlBlock + 0x4000, block⟩,
        ⟨loader.controlBlock, Word.bytes (memory.peekWord loader.controlBlock ||| Flag.mods)⟩,
        ⟨loader.controlBlock + 24, Word.bytes (UInt32.ofNat (loader.controlBlock + 0x4000))⟩] := by
  rw [publication, flags_of_block]
  simp only [ControlBlock.flagsOffset, ControlBlock.modsAddressOffset, Nat.add_zero]

theorem arming_eq (loader : Loader) (memory : Memory) (block : Bytes) :
    loader.publication memory block ++ [loader.goSignal] =
      [⟨loader.controlBlock + 0x4000, block⟩,
        ⟨loader.controlBlock, Word.bytes (memory.peekWord loader.controlBlock ||| Flag.mods)⟩,
        ⟨loader.controlBlock + 24, Word.bytes (UInt32.ofNat (loader.controlBlock + 0x4000))⟩,
        ⟨loader.controlBlock + 20, Word.bytes (UInt32.ofNat loader.modules.length)⟩] := by
  rw [publication_eq, goSignal, ControlBlock.modsCountOffset]
  rfl

theorem replay_arming (loader : Loader) (memory : Memory) (block : Bytes) :
    memory.replay (loader.publication memory block ++ [loader.goSignal]) =
      armed memory loader.controlBlock (loader.controlBlock + 0x4000) block
        (memory.peekWord loader.controlBlock ||| Flag.mods)
        (UInt32.ofNat (loader.controlBlock + 0x4000)) (UInt32.ofNat loader.modules.length) := by
  rw [arming_eq, armed, Memory.replay_cons, Memory.replay_cons, Memory.replay_cons,
    Memory.replay_cons, Memory.replay_nil]

theorem descriptor_address_fits {loader : Loader} {block : Bytes}
    (made : loader.descriptorBlock = .ok block) :
    loader.controlBlock + 0x4000 < 0x100000000 := by
  have fits := Module.block_fits (descriptor_block_ok made).2
  omega

theorem count_fits {loader : Loader} {block : Bytes}
    (made : loader.descriptorBlock = .ok block) : loader.modules.length < 0x100000000 := by
  obtain ⟨all, descriptorsMade, _⟩ := Module.block_ok (descriptor_block_ok made).2
  have bound := (Module.descriptors_bound descriptorsMade).2
  rw [Descriptor.size] at bound
  omega

theorem publish_returns {node : Node} (present : node.absent = false) {loader : Loader}
    {block : Bytes} (pushing : loader.phase = .pushing)
    (made : loader.descriptorBlock = .ok block) (aligned : loader.controlBlock % 4 = 0) :
    Returns (loader.publish remote) node () (loader.publication node.memory block) := by
  have flagsAligned : (loader.controlBlock + ControlBlock.flagsOffset) % 4 = 0 := by
    rw [ControlBlock.flagsOffset, Nat.add_zero, aligned]
  have addressAligned : (loader.controlBlock + ControlBlock.modsAddressOffset) % 4 = 0 := by
    rw [ControlBlock.modsAddressOffset]
    omega
  rw [publish, pushing, publication, ← List.nil_append (_ :: _), ← List.singleton_append]
  simp only [(descriptor_block_ok made).1, made, Engine.of_checked_ok, Engine.of_except_ok, pure_bind,
    narrow_of_lt (descriptor_address_fits made)]
  apply (returns_note _ _ _ node).bind
  intro noted tookNote
  have there := tookNote.present present
  apply (returns_store there _ _).bind
  intro stored tookBlock
  have there := tookBlock.present there
  have held : stored.memory = node.memory.store (loader.controlBlock + 0x4000) block := by
    rw [tookBlock.memory, tookNote.memory, Memory.replay_cons, Memory.replay_nil,
      Memory.replay_nil]
  rw [← List.nil_append (_ :: _), ← List.singleton_append]
  apply (returns_fetch_control_block there _).bind
  intro fetched tookNothing
  have there := tookNothing.present there
  rw [ControlBlock.withMods, Memory.controlBlock, held]
  apply (returns_store_word there flagsAligned _).bind
  intro flagged tookFlags
  have there := tookFlags.present there
  exact returns_store_word there addressAligned _

/-- With a control block off a word boundary the flags cannot be written. -/
theorem publish_stops_unaligned {node : Node} (present : node.absent = false) {loader : Loader}
    {block : Bytes} (pushing : loader.phase = .pushing)
    (made : loader.descriptorBlock = .ok block) (unaligned : loader.controlBlock % 4 ≠ 0) :
    Stops (loader.publish remote) node [⟨loader.controlBlock + 0x4000, block⟩] := by
  unfold publish
  rw [pushing]
  simp only [(descriptor_block_ok made).1, made, Engine.of_checked_ok, Engine.of_except_ok, pure_bind,
    narrow_of_lt (descriptor_address_fits made)]
  apply (returns_note _ _ _ node).bind_stops
  intro noted tookNote
  have there := tookNote.present present
  apply (returns_store there _ _).bind_stops
  intro stored tookBlock
  have there := tookBlock.present there
  apply (returns_fetch_control_block there _).bind_stops
  intro fetched tookNothing
  exact (stops_store_word unaligned _ fetched).bind _

/-- Without a block nothing of arming is done, be it for want of an address. -/
theorem stops_without_block {α : Type} {loader : Loader} {stop : Stop}
    (failed : loader.descriptorBlock = .error stop) (node : Node)
    (next : Nat → Bytes → Engine Node α) : Stops (do
      let base ← Engine.ofChecked loader.descriptorAddress
      let block ← Engine.ofChecked loader.descriptorBlock
      next base block) node [] := by
  cases formed : loader.descriptorAddress with
  | error other => exact (stops_of_checked rfl node).bind _
  | ok base =>
      rw [failed, Engine.of_checked_ok, pure_bind]
      exact (stops_of_checked rfl node).bind _

theorem publish_cases {node : Node} (present : node.absent = false) (loader : Loader) :
    (∃ block, loader.phase = .pushing ∧ loader.descriptorBlock = .ok block ∧
      loader.controlBlock % 4 = 0 ∧
      Returns (loader.publish remote) node () (loader.publication node.memory block)) ∨
    ∃ writes block, writes <+: [⟨loader.controlBlock + 0x4000, block⟩] ∧
      Stops (loader.publish remote) node writes := by
  cases phase : loader.phase with
  | idle =>
      refine Or.inr ⟨[], [], List.nil_prefix, ?_⟩
      rw [publish, phase]
      exact stops_fail _ node
  | armed =>
      refine Or.inr ⟨[], [], List.nil_prefix, ?_⟩
      rw [publish, phase]
      exact stops_fail _ node
  | pushing =>
      cases made : loader.descriptorBlock with
      | error stop =>
          refine Or.inr ⟨[], [], List.nil_prefix, ?_⟩
          rw [publish, phase]
          exact stops_without_block made node _
      | ok block =>
          by_cases aligned : loader.controlBlock % 4 = 0
          · exact Or.inl ⟨block, rfl, rfl, aligned, publish_returns present phase made aligned⟩
          · exact Or.inr ⟨_, block, List.prefix_refl _,
              publish_stops_unaligned present phase made aligned⟩

theorem signal_returns {node : Node} (present : node.absent = false) {loader : Loader}
    (aligned : loader.controlBlock % 4 = 0) :
    Returns (loader.signal remote) node { loader with phase := .armed } [loader.goSignal] := by
  unfold signal
  apply (returns_note _ _ _ node).bind
  intro noted tookNote
  have there := tookNote.present present
  apply (returns_store_word there (by rw [ControlBlock.modsCountOffset]; omega) _).bind
  intro counted tookCount
  split
  · apply (returns_note _ _ _ counted).bind
    intro warned tookWarning
    exact returns_pure _ warned
  · exact (returns_pure _ counted).bind fun last _ => returns_pure _ last

end RemoteBoot.Multiboot.Loader
