import Mathlib.Data.List.Induction
import Mathlib.Tactic.IntervalCases
import RemoteBoot.Proofs.Node.Transfers

/-!
# The history of a node in memory

Whatever is done to a node, in whatever order, its memory is what was stored into it one after
another, so every byte is the one of the last store that covers it.  Seeds store and leave no record;
writes store and are recorded, unless the node is absent.  The record since it was last cleared,
with the seeds in between put in their places, leads from the memory of that moment to the present
one.
-/

set_option autoImplicit false

namespace RemoteBoot.Node

/-- What can be done to a node; words are written at multiples of four. -/
inductive Deed where
  | seed (address : Nat) (bytes : Bytes)
  | seedWord (address : Nat) (word : UInt32)
  | seedQuadlet (index : Nat) (quadlet : UInt32)
  | seedRom (vendor model controlBlock : UInt32)
  | write (address : Nat) (bytes : Bytes)
  | writeWord (address : Nat) (word : UInt32) (aligned : address % 4 = 0)
  | read (address length : Nat)
  | setAbsent (absent : Bool)
  | clearWrites

def perform (node : Node) : Deed → Node
  | .seed address bytes => node.seed address bytes
  | .seedWord address word => node.seedWord address word
  | .seedQuadlet index quadlet => node.seedQuadlet index quadlet
  | .seedRom vendor model controlBlock => node.seedRom vendor model controlBlock
  | .write address bytes => (remote.store address bytes node).node
  | .writeWord address word _ => (remote.storeWord address word node).node
  | .read address length => (remote.fetch address length node).node
  | .setAbsent absent => { node with absent }
  | .clearWrites => node.clearWrites

/-- A new node after deeds. -/
def after (deeds : List Deed) : Node :=
  deeds.foldl perform {}

/-- Something that was stored, with or without a record. -/
inductive Event where
  | seeded (store : Write)
  | written (store : Write)

namespace Event

def store : Event → Write
  | seeded store => store
  | written store => store

def record? : Event → Option Write
  | seeded _ => none
  | written store => some store

end Event

/-- The bytes of a word, lowest first. -/
def lowFirst (word : UInt32) : Bytes :=
  [word.toUInt8, (word >>> 8).toUInt8, (word >>> 16).toUInt8, (word >>> 24).toUInt8]

/-- A seed of a ROM entry, highest byte first. -/
def seededEntry (index : Nat) (quadlet : UInt32) : Event :=
  .seeded ⟨0xfffff0000400 + 4 * index, (lowFirst quadlet).reverse⟩

/-- What a deed stores on a node that is absent or not. -/
def Deed.events (absent : Bool) : Deed → List Event
  | .seed address bytes => [.seeded ⟨address, bytes⟩]
  | .seedWord address word => [.seeded ⟨address, lowFirst word⟩]
  | .seedQuadlet index quadlet => [seededEntry index quadlet]
  | .seedRom vendor model controlBlock =>
    [seededEntry 6 (0x03000000 ||| vendor), seededEntry 7 (0x17000000 ||| model),
      seededEntry 18 controlBlock]
  | .write address bytes => if absent then [] else [.written ⟨address, bytes⟩]
  | .writeWord address word _ => if absent then [] else [.written ⟨address, lowFirst word⟩]
  | .read _ _ => []
  | .setAbsent _ => []
  | .clearWrites => []

def Deed.absence (absent : Bool) : Deed → Bool
  | .setAbsent other => other
  | _ => absent

/-- What deeds store, in order. -/
def events : Bool → List Deed → List Event
  | _, [] => []
  | absent, deed :: deeds => deed.events absent ++ events (deed.absence absent) deeds

theorem byte_of_shift (word shift : UInt32) (small : shift.toNat < 32) :
    (word >>> shift).toUInt8 = UInt8.ofNat (word.toNat / 2 ^ shift.toNat) := by
  apply UInt8.toNat_inj.mp
  rw [UInt8.toNat_ofNat', UInt32.toNat_toUInt8, UInt32.toNat_shiftRight, Nat.mod_eq_of_lt small,
    Nat.shiftRight_eq_div_pow]

theorem bytes_eq_low_first (word : UInt32) : Word.bytes word = lowFirst word := by
  have lowest : word.toUInt8 = UInt8.ofNat word.toNat := by
    apply UInt8.toNat_inj.mp
    rw [UInt8.toNat_ofNat', UInt32.toNat_toUInt8]
  rw [lowFirst, lowest, byte_of_shift word 8 (by decide), byte_of_shift word 16 (by decide),
    byte_of_shift word 24 (by decide)]
  simp only [Word.bytes, Word.littleEndian, Nat.div_div_eq_div_mul]
  rfl

theorem quadlet_bytes_eq (quadlet : UInt32) :
    Word.quadletBytes quadlet = (lowFirst quadlet).reverse := by
  rw [← bytes_eq_low_first]
  rfl

theorem quadlet_address_eq (index : Nat) :
    Rom.quadletAddress index = 0xfffff0000400 + 4 * index := by
  rw [Rom.quadletAddress, Rom.base, Nat.mul_comm]

/-- From one node to another these events have taken place. -/
structure Underwent (before : Node) (events : List Event) (after : Node) : Prop where
  memory : after.memory = before.memory.replay (events.map Event.store)
  log : after.writes = before.writes ++ events.filterMap Event.record?

theorem Underwent.refl (node : Node) : Underwent node [] node :=
  ⟨rfl, (List.append_nil node.writes).symm⟩

theorem Underwent.trans {first second third : Node} {earlier later : List Event}
    (begun : Underwent first earlier second) (continued : Underwent second later third) :
    Underwent first (earlier ++ later) third := by
  constructor
  · rw [continued.memory, begun.memory, List.map_append, Memory.replay_append]
  · rw [continued.log, begun.log, List.filterMap_append, List.append_assoc]

section Steps

variable (node : Node)

theorem underwent_seed (address : Nat) (bytes : Bytes) :
    Underwent node [.seeded ⟨address, bytes⟩] (node.seed address bytes) :=
  ⟨rfl, (List.append_nil node.writes).symm⟩

theorem underwent_seed_quadlet (index : Nat) (quadlet : UInt32) :
    Underwent node [seededEntry index quadlet] (node.seedQuadlet index quadlet) := by
  rw [seedQuadlet, quadlet_address_eq, quadlet_bytes_eq, seededEntry]
  exact node.underwent_seed _ _

theorem underwent_store (address : Nat) (bytes : Bytes) :
    Underwent node (if node.absent then [] else [.written ⟨address, bytes⟩])
      (remote.store address bytes node).node := by
  cases present : node.absent with
  | false =>
      rw [store_present present]
      exact ⟨rfl, rfl⟩
  | true =>
      rw [store_absent present]
      exact .refl node

theorem underwent_fetch (address length : Nat) :
    Underwent node [] (remote.fetch address length node).node := by
  cases present : node.absent with
  | false =>
      rw [fetch_present present]
      exact ⟨rfl, (List.append_nil node.writes).symm⟩
  | true =>
      rw [fetch_absent present]
      exact .refl node

theorem store_word_aligned {address : Nat} (aligned : address % 4 = 0) (word : UInt32) :
    remote.storeWord address word = remote.store address (lowFirst word) := by
  rw [Remote.storeWord, if_neg (fun unaligned => unaligned aligned), bytes_eq_low_first]

/-- Only clearing shortens the record. -/
theorem underwent_perform {deed : Deed} (kept : deed ≠ .clearWrites) :
    Underwent node (deed.events node.absent) (node.perform deed) := by
  cases deed with
  | seed address bytes => exact node.underwent_seed address bytes
  | seedWord address word =>
      rw [perform, seedWord, bytes_eq_low_first]
      exact node.underwent_seed address _
  | seedQuadlet index quadlet => exact node.underwent_seed_quadlet index quadlet
  | seedRom vendor model controlBlock =>
      have first := node.underwent_seed_quadlet 6 (0x03000000 ||| vendor)
      have second := first.trans (underwent_seed_quadlet _ 7 (0x17000000 ||| model))
      exact second.trans (underwent_seed_quadlet _ 18 controlBlock)
  | write address bytes => exact node.underwent_store address bytes
  | writeWord address word aligned =>
      rw [perform, store_word_aligned aligned]
      exact node.underwent_store address _
  | read address length => exact node.underwent_fetch address length
  | setAbsent absent => exact ⟨rfl, (List.append_nil node.writes).symm⟩
  | clearWrites => exact absurd rfl kept

theorem absent_store (address : Nat) (bytes : Bytes) :
    (remote.store address bytes node).node.absent = node.absent := by
  cases present : node.absent with
  | false =>
      rw [store_present present]
      exact present
  | true =>
      rw [store_absent present]
      exact present

theorem absent_perform (deed : Deed) : (node.perform deed).absent = deed.absence node.absent := by
  cases deed with
  | write address bytes => exact node.absent_store address bytes
  | writeWord address word aligned =>
      rw [perform, store_word_aligned aligned]
      exact node.absent_store address _
  | read address length =>
      cases present : node.absent with
      | false =>
          rw [perform, fetch_present present]
          exact present
      | true =>
          rw [perform, fetch_absent present]
          exact present
  | _ => rfl

theorem memory_perform (deed : Deed) :
    (node.perform deed).memory =
      node.memory.replay ((deed.events node.absent).map Event.store) := by
  cases deed with
  | clearWrites => rfl
  | _ => exact (node.underwent_perform (by simp)).memory

end Steps

section Runs

theorem memory_foldl (node : Node) (deeds : List Deed) :
    (deeds.foldl perform node).memory =
      node.memory.replay ((events node.absent deeds).map Event.store) := by
  induction deeds generalizing node with
  | nil => rfl
  | cons deed deeds ih =>
      rw [List.foldl_cons, ih, memory_perform, absent_perform, events, List.map_append,
        Memory.replay_append]

theorem underwent_foldl (node : Node) {deeds : List Deed} (kept : Deed.clearWrites ∉ deeds) :
    Underwent node (events node.absent deeds) (deeds.foldl perform node) := by
  induction deeds generalizing node with
  | nil => exact .refl node
  | cons deed deeds ih =>
      obtain ⟨other, rest⟩ := not_or.mp (mt List.mem_cons.mpr kept)
      have first := node.underwent_perform (Ne.symm other)
      have later := ih (node.perform deed) rest
      rw [absent_perform] at later
      exact first.trans later

/-- The place behind the last clearing, or the start. -/
theorem exists_last_clear (deeds : List Deed) :
    ∃ before since, deeds = before ++ since ∧
      (before = [] ∨ ∃ earlier, before = earlier ++ [Deed.clearWrites]) ∧
      Deed.clearWrites ∉ since := by
  induction deeds with
  | nil => exact ⟨[], [], rfl, Or.inl rfl, List.not_mem_nil⟩
  | cons deed deeds ih =>
      obtain ⟨before, since, rfl, ends, free⟩ := ih
      rcases ends with rfl | ⟨earlier, rfl⟩
      · by_cases clears : deed = .clearWrites
        · exact ⟨[deed], since, rfl, Or.inr ⟨[], by rw [clears]; rfl⟩, free⟩
        · exact ⟨[], deed :: since, rfl, Or.inl rfl,
            mt List.mem_cons.mp (not_or.mpr ⟨Ne.symm clears, free⟩)⟩
      · exact ⟨deed :: earlier ++ [.clearWrites], since, rfl, Or.inr ⟨deed :: earlier, rfl⟩, free⟩

theorem writes_after_clear {before : List Deed}
    (ends : before = [] ∨ ∃ earlier, before = earlier ++ [Deed.clearWrites]) :
    (after before).writes = [] := by
  rcases ends with rfl | ⟨earlier, rfl⟩
  · rfl
  · rw [after, List.foldl_append]
    rfl

/-- A place shows the last store over it, or what it held before if there is none. -/
theorem last_store_shows (memory : Memory) (stores : List Write) (place : Nat) :
    (∃ earlier store later, stores = earlier ++ store :: later ∧ store.covers place = true ∧
        (∀ other ∈ later, other.covers place = false) ∧
        store.bytes[place - store.address]? = some ((memory.replay stores).byteAt place)) ∨
      ((∀ store ∈ stores, store.covers place = false) ∧
        (memory.replay stores).byteAt place = memory.byteAt place) := by
  induction stores using List.reverseRecOn with
  | nil => exact Or.inr ⟨(fun _ member => nomatch member), rfl⟩
  | append_singleton stores last ih =>
      have stored : (memory.replay (stores ++ [last])).byteAt place =
          (last.byte? place).getD ((memory.replay stores).byteAt place) := by
        rw [Memory.replay_append, Memory.replay_cons, Memory.replay_nil, Memory.byte_at_store]
      cases covered : last.covers place with
      | true =>
          have range := (last.covers_iff place).mp covered
          have inside : place - last.address < last.bytes.length := by omega
          refine Or.inl ⟨stores, last, [], rfl, covered, (fun _ member => nomatch member), ?_⟩
          rw [stored, Write.byte?, if_pos covered, List.getElem?_eq_getElem inside,
            Option.getD_some]
      | false =>
          have untouched := (last.byte_eq_none_iff place).mpr covered
          rw [untouched, Option.getD_none] at stored
          rw [stored]
          rcases ih with ⟨earlier, store, later, rfl, covers, free, byte⟩ | ⟨free, same⟩
          · refine Or.inl ⟨earlier, store, later ++ [last], by simp, covers, ?_, byte⟩
            intro other member
            rcases List.mem_append.mp member with old | new
            · exact free other old
            · rw [List.mem_singleton.mp new, covered]
          · refine Or.inr ⟨?_, same⟩
            intro store member
            rcases List.mem_append.mp member with old | new
            · exact free store old
            · rw [List.mem_singleton.mp new, covered]

/-- A record covers the places whose byte its write decides, whatever was there. -/
theorem covers_iff_decides (write : Write) (place : Nat) :
    write.covers place = true ↔
      ∃ byte, ∀ memory : Memory, (memory.store write.address write.bytes).byteAt place = byte := by
  simp only [Memory.byte_at_store]
  constructor
  · intro covered
    cases stored : write.byte? place with
    | none =>
        rw [(write.byte_eq_none_iff place).mp stored] at covered
        cases covered
    | some byte => exact ⟨byte, fun memory => rfl⟩
  · intro decided
    obtain ⟨byte, same⟩ := decided
    cases covered : write.covers place with
    | true => rfl
    | false =>
        -- A place that is left alone shows two different memories.
        simp only [(write.byte_eq_none_iff place).mpr covered, Option.getD_none] at same
        have zero := same ⟨fun _ => 0⟩
        have one := same ⟨fun _ => 1⟩
        rw [← zero] at one
        cases one

theorem peek_bytes (memory : Memory) (address : Nat) {length offset : Nat}
    (inside : offset < length) :
    (memory.peek address length)[offset]? = some (memory.byteAt (address + offset)) := by
  rw [Memory.peek, List.getElem?_map, List.getElem?_range inside, Option.map_some]

/-- Whatever is done to a new node, every byte is that of the last store over it; a read gives the
bytes asked for and only counts; the record since the last clearing holds the writes in order and
leads, with the seeds in between, from the memory of that moment to the present one; a record covers
what its write stored; and an absent node fails every transfer and stays as it is. -/
theorem history_is_kept (deeds : List Deed) :
    let node := after deeds
    let stores := (events false deeds).map Event.store
    (∀ place,
      (∃ earlier store later, stores = earlier ++ store :: later ∧ store.covers place = true ∧
          (∀ other ∈ later, other.covers place = false) ∧
          store.bytes[place - store.address]? = some (node.memory.byteAt place)) ∨
        ((∀ store ∈ stores, store.covers place = false) ∧ node.memory.byteAt place = 0)) ∧
    (node.absent = false → ∀ address length, ∃ bytes,
      remote.fetch address length node = ⟨.ok bytes, { node with reads := node.reads + 1 }, []⟩ ∧
        bytes.length = length ∧ ∀ offset < length,
          bytes[offset]? = some (node.memory.byteAt (address + offset))) ∧
    (∃ before since, deeds = before ++ since ∧
      (before = [] ∨ ∃ earlier, before = earlier ++ [Deed.clearWrites]) ∧
      Deed.clearWrites ∉ since ∧
      let happened := events (after before).absent since
      node.writes = happened.filterMap Event.record? ∧
        node.memory = (after before).memory.replay (happened.map Event.store)) ∧
    (∀ (record : Write) (place : Nat), record.covers place = true ↔
      ∃ byte, ∀ memory : Memory,
        (memory.store record.address record.bytes).byteAt place = byte) ∧
    (node.absent = true → ∀ address,
      (∀ length, ∃ command diagnostic, remote.fetch address length node =
        ⟨.error (.fault (.transport command diagnostic)), node, []⟩) ∧
      (∀ bytes, ∃ command diagnostic, remote.store address bytes node =
        ⟨.error (.fault (.transport command diagnostic)), node, []⟩) ∧
      ∀ word, address % 4 = 0 → ∃ command diagnostic, remote.storeWord address word node =
        ⟨.error (.fault (.transport command diagnostic)), node, []⟩) := by
  intro node stores
  refine ⟨?_, ?_, ?_, covers_iff_decides, ?_⟩
  · intro place
    have memory : node.memory = Memory.blank.replay stores := memory_foldl {} deeds
    rw [memory]
    exact last_store_shows Memory.blank stores place
  · intro present address length
    exact ⟨_, fetch_present present address length, Memory.length_peek _ _ _,
      fun offset inside => peek_bytes node.memory address inside⟩
  · obtain ⟨before, since, split, ends, free⟩ := exists_last_clear deeds
    refine ⟨before, since, split, ends, free, ?_⟩
    have further : node = since.foldl perform (after before) := by
      rw [after, ← List.foldl_append, ← split]
      rfl
    have underwent := underwent_foldl (after before) free
    rw [← further] at underwent
    refine ⟨?_, underwent.memory⟩
    rw [underwent.log, writes_after_clear ends, List.nil_append]
  · intro gone address
    have stored : ∀ bytes, ∃ command diagnostic, remote.store address bytes node =
        ⟨.error (.fault (.transport command diagnostic)), node, []⟩ :=
      fun bytes => ⟨_, _, store_absent gone address bytes⟩
    refine ⟨fun length => ⟨_, _, fetch_absent gone address length⟩, stored, ?_⟩
    intro word aligned
    rw [store_word_aligned aligned]
    exact stored _

end Runs

/-- Seeds and writes over one another, a write that is lost on the absent node, and a record that is
cleared in between. -/
def medley : List Deed :=
  [.seed 0x10 [1, 2, 3], .write 0x11 [9, 9], .setAbsent true, .write 0x10 [5],
    .seedWord 0x12 0x04030201, .setAbsent false, .clearWrites, .writeWord 0x10 0x0d0c0b0a rfl,
    .seed 0x13 [8], .write 0x14 [], .read 0x10 6]

theorem medley_is_kept :
    (after medley).absent = false ∧
      (remote.fetch 0x10 6 (after medley)).result = .ok [10, 11, 12, 8, 3, 4] ∧
      (after medley).writes = [⟨0x10, [10, 11, 12, 13]⟩, ⟨0x14, []⟩] ∧
      (after (medley ++ [.setAbsent true])).absent = true ∧ 0x10 % 4 = 0 ∧
      ∃ command diagnostic, remote.storeWord 0x10 7 (after (medley ++ [.setAbsent true])) =
        ⟨.error (.fault (.transport command diagnostic)), after (medley ++ [.setAbsent true]), []⟩ := by
  obtain ⟨_, reads, _, _, _⟩ := history_is_kept medley
  obtain ⟨_, _, _, _, fails⟩ := history_is_kept (medley ++ [.setAbsent true])
  obtain ⟨bytes, read, counted, shown⟩ := reads rfl 0x10 6
  refine ⟨rfl, ?_, by decide +kernel, rfl, rfl, ((fails rfl) 0x10).2.2 7 rfl⟩
  have same : bytes = [10, 11, 12, 8, 3, 4] := by
    apply List.ext_getElem?
    intro offset
    by_cases inside : offset < 6
    · rw [shown offset inside]
      interval_cases offset <;> decide +kernel
    · rw [List.getElem?_eq_none (by omega), List.getElem?_eq_none]
      simp only [List.length_cons, List.length_nil]
      omega
  rw [read, same]

end RemoteBoot.Node
