import RemoteBoot.Proofs.Multiboot.Operations
import RemoteBoot.Remote.Disturbed

/-!
# Reads that come back short

Transfers are meant to be whole, but nothing about a remote makes them so.  Whoever decodes a read
checks its length: the words, the quadlets and the control block all refuse a read that came back
short.  The one exception is a listing of the ROM, which takes what it gets.
-/

set_option autoImplicit false

namespace RemoteBoot

open Multiboot

variable {σ α β γ : Type}

/-- An action that begins with a read and goes on with the value that the bytes stand for.  A read
that failed stops it as it is, and one that came back short stops it with a transport fault; neither
does the node anything more. -/
structure Decodes (remote : Remote σ) (address length : Nat) (encode : β → Bytes)
    (next : β → Engine σ α) (action : Engine σ α) : Prop where
  failed : ∀ {node stop}, (remote.fetch address length node).result = .error stop →
    (action node).result = .error stop ∧
      (action node).node = (remote.fetch address length node).node
  short : ∀ {node bytes}, (remote.fetch address length node).result = .ok bytes →
    bytes.length < length →
      (action node).result =
          .error (.fault (.shortTransfer "read" address length bytes.length)) ∧
        (action node).node = (remote.fetch address length node).node
  whole : ∀ {node bytes}, (remote.fetch address length node).result = .ok bytes →
    bytes.length = length → ∃ value, encode value = bytes ∧
      (action node).result = (next value (remote.fetch address length node).node).result ∧
      (action node).node = (next value (remote.fetch address length node).node).node

section Decoding

variable (remote : Remote σ) {address length : Nat} {encode : β → Bytes} {next : β → Engine σ α}

theorem decodes_of_check {check : Bytes → Engine σ α}
    (refuses : ∀ bytes : Bytes, bytes.length < length →
      check bytes = Engine.fail (.shortTransfer "read" address length bytes.length))
    (accepts : ∀ bytes : Bytes, bytes.length = length →
      ∃ value, encode value = bytes ∧ check bytes = next value) :
    Decodes remote address length encode next (remote.fetch address length >>= check) := by
  constructor
  · intro node stop failed
    exact Engine.bind_of_error check failed
  · intro node bytes fetched short
    have left := Engine.bind_of_ok check fetched
    rw [refuses bytes short] at left
    exact left
  · intro node bytes fetched whole
    obtain ⟨value, same, goes⟩ := accepts bytes whole
    have left := Engine.bind_of_ok check fetched
    rw [goes] at left
    exact ⟨value, same, left⟩

variable {remote}

theorem Decodes.bind {action : Engine σ α}
    (decodes : Decodes remote address length encode next action) (further : α → Engine σ γ) :
    Decodes remote address length encode (fun value => next value >>= further)
      (action >>= further) := by
  have follows : ∀ {node place : σ} {other : Engine σ α},
      (action node).result = (other place).result → (action node).node = (other place).node →
        ((action >>= further) node).result = ((other >>= further) place).result ∧
          ((action >>= further) node).node = ((other >>= further) place).node := by
    intro node place other result left
    rw [Engine.bind_apply, Engine.bind_apply, result, left]
    cases (other place).result <;> exact ⟨rfl, rfl⟩
  constructor
  · intro node stop failed
    have left := decodes.failed failed
    have right := Engine.bind_of_error further left.1
    exact ⟨right.1, right.2.trans left.2⟩
  · intro node bytes fetched short
    have left := decodes.short fetched short
    have right := Engine.bind_of_error further left.1
    exact ⟨right.1, right.2.trans left.2⟩
  · intro node bytes fetched whole
    obtain ⟨value, same, result, left⟩ := decodes.whole fetched whole
    exact ⟨value, same, follows result left⟩

end Decoding

namespace Word

theorem bytes_of_bytes {bytes : Bytes} (whole : 4 ≤ bytes.length) :
    Word.bytes (ofBytes bytes) = bytes.take 4 := by
  have length : (bytes.take 4).length = 4 := by
    rw [List.length_take]
    omega
  have bounded := ofLittleEndian_lt (bytes.take 4)
  have back := littleEndian_ofLittleEndian (bytes.take 4)
  rw [length] at bounded back
  rw [Word.bytes, ofBytes, UInt32.toNat_ofNat_of_lt' bounded, back]

theorem quadlet_bytes_of_quadlet_bytes {bytes : Bytes} (whole : bytes.length = 4) :
    quadletBytes (ofQuadletBytes bytes) = bytes := by
  have length : bytes.reverse.length = 4 := by
    rw [List.length_reverse, whole]
  have bounded := ofLittleEndian_lt bytes.reverse
  have back := littleEndian_ofLittleEndian bytes.reverse
  rw [length] at bounded back
  rw [quadletBytes, ofQuadletBytes, List.take_of_length_le (by omega), ofBigEndian, bigEndian,
    UInt32.toNat_ofNat_of_lt' bounded, back, List.reverse_reverse]

end Word

/-- A control block is read back from its bytes. -/
theorem Multiboot.ControlBlock.of_bytes_eq_some {bytes : Bytes} (whole : bytes.length = size) :
    ∃ block, ofBytes? bytes = some block ∧ block.toBytes = bytes := by
  rw [size] at whole
  have word : ∀ offset, offset + 4 ≤ 28 →
      Word.bytes (Word.ofBytes (bytes.drop offset)) ++ bytes.drop (offset + 4) =
        bytes.drop offset := by
    intro offset within
    rw [Word.bytes_of_bytes (by rw [List.length_drop]; omega), ← List.drop_drop,
      List.take_append_drop]
  have rest : bytes.drop 28 = [] := List.drop_eq_nil_of_le (by omega)
  refine ⟨_, if_neg (by rw [size]; omega), ?_⟩
  simp only [toBytes, words, modsCountOffset, modsAddressOffset, List.flatMap_cons,
    List.flatMap_nil]
  rw [← rest, word 24 (by decide), word 20 (by decide), word 16 (by decide), word 12 (by decide),
    word 8 (by decide), word 4 (by decide)]
  exact word 0 (by decide)

section Operations

variable (remote : Remote σ)

theorem decodes_word {address : Nat} (aligned : address % 4 = 0) :
    Decodes remote address 4 Word.bytes pure (remote.fetchWord address) := by
  rw [Remote.fetchWord, if_neg (not_not_intro aligned)]
  apply decodes_of_check
  · intro bytes short
    rw [if_neg (Nat.ne_of_lt short)]
  · intro bytes whole
    refine ⟨Word.ofBytes bytes, ?_, if_pos whole⟩
    rw [Word.bytes_of_bytes (Nat.le_of_eq whole.symm), List.take_of_length_le (Nat.le_of_eq whole)]

theorem decodes_quadlet (index : Nat) :
    Decodes remote (Rom.quadletAddress index) 4 Word.quadletBytes pure
      (Rom.readQuadlet remote index) := by
  apply decodes_of_check
  · intro bytes short
    rw [if_neg (Nat.ne_of_lt short)]
  · intro bytes whole
    exact ⟨_, Word.quadlet_bytes_of_quadlet_bytes whole, if_pos whole⟩

theorem decodes_control_block_address :
    Decodes remote (Rom.quadletAddress Rom.controlBlockIndex) 4 Word.quadletBytes
      (fun quadlet => pure quadlet.toNat) (Rom.controlBlockAddress remote) := by
  have reading := (decodes_quadlet remote Rom.controlBlockIndex).bind
    fun quadlet => (pure quadlet.toNat : Engine σ Nat)
  simp only [pure_bind] at reading
  exact reading

theorem decodes_control_block (address : Nat) :
    Decodes remote address ControlBlock.size ControlBlock.toBytes pure
      (ControlBlock.fetch remote address) := by
  apply decodes_of_check
  · intro bytes short
    rw [ControlBlock.ofBytes?, if_pos short]
  · intro bytes whole
    obtain ⟨block, decoded, same⟩ := ControlBlock.of_bytes_eq_some whole
    refine ⟨block, same, ?_⟩
    rw [decoded]

/-- What a loader that was begun makes of the control block. -/
def openOn (controlBlock cursor : Nat) (block : ControlBlock) : Engine σ Loader :=
  if block.modsCount ≠ 0 then Engine.fail (.alreadyBooted block.modsCount)
  else pure ⟨controlBlock, .idle, cursor, []⟩

theorem decodes_begin {controlBlock : Nat} (published : controlBlock ≠ 0) (cursor : Nat) :
    Decodes remote controlBlock ControlBlock.size ControlBlock.toBytes
      (openOn controlBlock cursor) (Loader.begin remote controlBlock cursor) := by
  rw [Loader.begin, if_neg published]
  have reading := (decodes_control_block remote controlBlock).bind (openOn controlBlock cursor)
  simp only [pure_bind] at reading
  exact reading

/-- The read of arming stands behind the descriptor block and in front of all words. -/
theorem arm_decodes {loader : Loader} {block : Bytes} (pushing : loader.phase = .pushing)
    (made : loader.descriptorBlock = .ok block) :
    ∃ rest, Decodes remote loader.controlBlock ControlBlock.size ControlBlock.toBytes
        (loader.conclude remote) rest ∧
      loader.arm remote = (do
        Engine.note .info .loader ("add modules at " ++ Numeral.hex (loader.controlBlock + 0x4000))
        remote.store (loader.controlBlock + 0x4000) block
        rest) := by
  refine ⟨ControlBlock.fetch remote loader.controlBlock >>= loader.conclude remote, ?_, ?_⟩
  · simpa only [pure_bind] using
      (decodes_control_block remote loader.controlBlock).bind (loader.conclude remote)
  · rw [Loader.arm_eq_announce_conclude, Loader.announce, pushing]
    simp only [(Loader.descriptor_block_ok made).1, made, Engine.of_checked_ok, pure_bind, bind_assoc]

end Operations

namespace Rom

theorem short_of_no_quadlet {bytes : Bytes}
    (none : ∀ a b c d rest, bytes = a :: b :: c :: d :: rest → False) : bytes.length < 4 := by
  rcases bytes with _ | ⟨a, _ | ⟨b, _ | ⟨c, _ | ⟨d, rest⟩⟩⟩⟩
  case cons.cons.cons.cons => exact (none a b c d rest rfl).elim
  all_goals simp only [List.length_cons, List.length_nil, Nat.reduceAdd, Nat.reduceLT]

/-- The quadlets of some bytes are the whole ones at their head. -/
theorem quadlets_spec (bytes : Bytes) :
    (quadlets bytes).length = bytes.length / 4 ∧
      (quadlets bytes).flatMap Word.quadletBytes = bytes.take (4 * (bytes.length / 4)) := by
  fun_induction quadlets bytes with
  | case1 a b c d rest ih =>
      have more : (a :: b :: c :: d :: rest).length / 4 = rest.length / 4 + 1 := by
        simp only [List.length_cons]
        omega
      rw [more]
      constructor
      · rw [List.length_cons, ih.1]
      · rw [List.flatMap_cons, ih.2, Word.quadlet_bytes_of_quadlet_bytes rfl, Nat.mul_succ]
        rfl
  | case2 bytes none =>
      have short := short_of_no_quadlet none
      rw [Nat.div_eq_of_lt short, Nat.mul_zero, List.take_zero]
      exact ⟨rfl, rfl⟩

end Rom

section Rom

variable (remote : Remote σ)

/-- What a listing of the ROM makes of its read: it takes the whole quadlets of what came back, so
it is incomplete exactly if the read came back short. -/
structure Lists (count : Nat) : Prop where
  failed : ∀ {node stop}, (remote.fetch Rom.base (count * 4) node).result = .error stop →
    (Rom.readRom remote count node).result = .error stop
  fetched : ∀ {node bytes}, (remote.fetch Rom.base (count * 4) node).result = .ok bytes →
    ∃ quadlets, (Rom.readRom remote count node).result = .ok quadlets ∧
      quadlets.flatMap Word.quadletBytes = bytes.take (4 * (bytes.length / 4)) ∧
      quadlets.length = bytes.length / 4 ∧
      (quadlets.length < count ↔ bytes.length < count * 4)

theorem lists_rom {count : Nat} (counted : count * 4 < 0x100000000) : Lists remote count := by
  have reads : Rom.readRom remote count =
      remote.fetch Rom.base (count * 4) >>= fun bytes => pure (Rom.quadlets bytes) :=
    if_pos counted
  constructor
  · intro node stop failed
    rw [reads]
    exact (Engine.bind_of_error _ failed).1
  · intro node bytes fetched
    obtain ⟨length, joined⟩ := Rom.quadlets_spec bytes
    refine ⟨Rom.quadlets bytes, ?_, joined, length, ?_⟩
    · rw [reads]
      exact (Engine.bind_of_ok _ fetched).1
    · rw [length, Nat.div_lt_iff_lt_mul (by decide)]

/-- What a probe makes of its two reads. -/
structure Probes : Prop where
  failed : ∀ {node fault}, (remote.fetch (Rom.quadletAddress Rom.vendorIndex) 4 node).result =
      .error (.fault fault) → (Rom.discover remote node).result = .ok ⟨0, 0⟩
  vendor : ∀ {node bytes}, (remote.fetch (Rom.quadletAddress Rom.vendorIndex) 4 node).result =
      .ok bytes → bytes.length < 4 → (Rom.discover remote node).result = .ok ⟨0, 0⟩
  model : ∀ {node first second},
    let vendor := remote.fetch (Rom.quadletAddress Rom.vendorIndex) 4 node
    vendor.result = .ok first → first.length = 4 →
      (remote.fetch (Rom.quadletAddress Rom.modelIndex) 4 vendor.node).result = .ok second →
      second.length < 4 → (Rom.discover remote node).result = .ok ⟨0, 0⟩
  whole : ∀ {node first second},
    let vendor := remote.fetch (Rom.quadletAddress Rom.vendorIndex) 4 node
    vendor.result = .ok first → first.length = 4 →
      (remote.fetch (Rom.quadletAddress Rom.modelIndex) 4 vendor.node).result = .ok second →
      second.length = 4 → ∃ vendor model, Word.quadletBytes vendor = first ∧
        Word.quadletBytes model = second ∧
        (Rom.discover remote node).result = .ok ⟨Rom.entryValue vendor, Rom.entryValue model⟩

theorem discover_of_identity {node : σ} {discovery : Rom.Discovery}
    (read : (Rom.readIdentity remote node).result = .ok discovery) :
    (Rom.discover remote node).result = .ok discovery := by
  have attempted : (Engine.attempt (Rom.readIdentity remote) node).result =
      .ok (.ok discovery) := by
    rw [Engine.result_attempt, read]
  exact (Engine.bind_of_ok _ attempted).1

theorem discover_of_fault {node : σ} {fault : Fault}
    (failed : (Rom.readIdentity remote node).result = .error (.fault fault)) :
    (Rom.discover remote node).result = .ok ⟨0, 0⟩ := by
  have attempted : (Engine.attempt (Rom.readIdentity remote) node).result =
      .ok (.error fault) := by
    rw [Engine.result_attempt, failed]
  exact (Engine.bind_of_ok _ attempted).1

theorem probes : Probes remote := by
  have model : ∀ vendor : UInt32, Decodes remote (Rom.quadletAddress Rom.modelIndex) 4
      Word.quadletBytes
      (fun model => pure ⟨Rom.entryValue vendor, Rom.entryValue model⟩)
      (do
        let model ← Rom.readQuadlet remote Rom.modelIndex
        pure (⟨Rom.entryValue vendor, Rom.entryValue model⟩ : Rom.Discovery)) := by
    intro vendor
    have reading := (decodes_quadlet remote Rom.modelIndex).bind fun model =>
      (pure ⟨Rom.entryValue vendor, Rom.entryValue model⟩ : Engine σ Rom.Discovery)
    simp only [pure_bind] at reading
    exact reading
  have identity := (decodes_quadlet remote Rom.vendorIndex).bind fun vendor => do
    let model ← Rom.readQuadlet remote Rom.modelIndex
    (pure ⟨Rom.entryValue vendor, Rom.entryValue model⟩ : Engine σ Rom.Discovery)
  simp only [pure_bind] at identity
  constructor
  · intro node fault failed
    exact discover_of_fault remote (identity.failed failed).1
  · intro node bytes fetched short
    exact discover_of_fault remote (identity.short fetched short).1
  · intro node first second probed fetched whole fetchedModel short
    obtain ⟨vendor, _, goes, _⟩ := identity.whole fetched whole
    exact discover_of_fault remote (goes.trans ((model vendor).short fetchedModel short).1)
  · intro node first second probed fetched whole fetchedModel wholeModel
    obtain ⟨vendor, sameVendor, goes, _⟩ := identity.whole fetched whole
    obtain ⟨value, sameModel, ends, _⟩ := (model vendor).whole fetchedModel wholeModel
    exact ⟨vendor, value, sameVendor, sameModel,
      discover_of_identity remote (goes.trans ends)⟩

end Rom

/-- Whatever decodes a read stops with a transport fault if the read came back short, and goes on
with what the full length stands for if it did not; a probe finds no agent then.  A listing of the
ROM does not stop: it gives the quadlets that came. -/
theorem short_reads (remote : Remote σ) :
    (∀ address, address % 4 = 0 →
      Decodes remote address 4 Word.bytes pure (remote.fetchWord address)) ∧
    Decodes remote (Rom.quadletAddress Rom.controlBlockIndex) 4 Word.quadletBytes
      (fun quadlet => pure quadlet.toNat) (Rom.controlBlockAddress remote) ∧
    (∀ address, Decodes remote address ControlBlock.size ControlBlock.toBytes pure
      (ControlBlock.fetch remote address)) ∧
    (∀ controlBlock cursor, controlBlock ≠ 0 →
      Decodes remote controlBlock ControlBlock.size ControlBlock.toBytes
        (openOn controlBlock cursor) (Loader.begin remote controlBlock cursor)) ∧
    (∀ (loader : Loader) block, loader.phase = .pushing → loader.descriptorBlock = .ok block →
      ∃ rest, Decodes remote loader.controlBlock ControlBlock.size ControlBlock.toBytes
          (loader.conclude remote) rest ∧
        loader.arm remote = (do
          Engine.note .info .loader ("add modules at " ++ Numeral.hex (loader.controlBlock + 0x4000))
          remote.store (loader.controlBlock + 0x4000) block
          rest)) ∧
    Probes remote ∧ (⟨0, 0⟩ : Rom.Discovery).isAgent = false ∧
    ∀ count, count * 4 < 0x100000000 → Lists remote count :=
  ⟨fun _ aligned => decodes_word remote aligned, decodes_control_block_address remote,
    decodes_control_block remote, fun _ cursor published => decodes_begin remote published cursor,
    fun _ _ pushing made => arm_decodes remote pushing made, probes remote, by decide,
    fun _ counted => lists_rom remote counted⟩

/-- An agent in memory of which reads of the ROM's head come back with eight bytes, and reads of the
control block with one byte too few. -/
def frayed : Node × FaultPlan :=
  (Node.withAgent 0x9f000, { shortReads := [(Rom.base, 8), (0x9f000, 27)] })

theorem frayed_head :
    ((Node.remote.disturbed FaultPlan.schedule).fetch Rom.base 76 frayed).result =
      .ok (List.replicate 8 0) :=
  ok_of_to_option (by decide +kernel)

theorem frayed_refused :
    (Loader.begin (Node.remote.disturbed FaultPlan.schedule) 0x9f000 0 frayed).result =
        .error (.fault (.shortTransfer "read" 0x9f000 28 27)) ∧
      ∃ quadlets, (Rom.readRom (Node.remote.disturbed FaultPlan.schedule) 19 frayed).result =
        .ok quadlets ∧ quadlets.length = 2 := by
  obtain ⟨_, _, _, begins, _, _, _, lists⟩ := short_reads (Node.remote.disturbed FaultPlan.schedule)
  have block : ((Node.remote.disturbed FaultPlan.schedule).fetch 0x9f000 28 frayed).result =
      .ok (List.replicate 27 0) :=
    ok_of_to_option (by decide +kernel)
  obtain ⟨quadlets, listed, _, length, _⟩ := (lists 19 (by decide)).fetched frayed_head
  exact ⟨((begins 0x9f000 0 (by decide)).short block (by decide)).1, quadlets, listed, length⟩

/-- A short read does not always fail: nineteen quadlets were asked for, and two are listed. -/
theorem short_reads_not_always_fail :
    ¬ ∀ (node : Node) (plan : FaultPlan) (count : Nat), count * 4 < 0x100000000 →
      ∀ bytes : Bytes, ((Node.remote.disturbed FaultPlan.schedule).fetch Rom.base (count * 4)
          (node, plan)).result = .ok bytes → bytes.length < count * 4 →
        ∃ command diagnostic,
          (Rom.readRom (Node.remote.disturbed FaultPlan.schedule) count (node, plan)).result =
            .error (.fault (.transport command diagnostic)) := by
  intro always
  have listed : (Rom.readRom (Node.remote.disturbed FaultPlan.schedule) 19 frayed).result =
      .ok [0, 0] :=
    ok_of_to_option (by decide +kernel)
  obtain ⟨command, diagnostic, failed⟩ := always frayed.1 frayed.2 19 (by decide) _ frayed_head
    (by decide)
  cases listed.symm.trans failed

end RemoteBoot
