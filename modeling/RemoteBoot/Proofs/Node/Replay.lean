import RemoteBoot.Node.Basic

/-!
# Replaying writes

Memory after a list of writes holds at every place the byte of the last write that covers it, and
what it held before where none does.  `Node.Took` says that one node went on from another by taking
a list of writes: memory replays them and the log got longer by them.
-/

set_option autoImplicit false

namespace RemoteBoot

namespace Write

def byte? (write : Write) (place : Nat) : Option Byte :=
  if write.covers place then write.bytes[place - write.address]? else none

/-- No place from `start` on and below `stop` is covered. -/
def Misses (write : Write) (start stop : Nat) : Prop :=
  ∀ place, start ≤ place → place < stop → write.covers place = false

theorem covers_iff (write : Write) (place : Nat) :
    write.covers place = true ↔
      write.address ≤ place ∧ place < write.address + write.bytes.length := by
  simp only [covers, Bool.and_eq_true, decide_eq_true_eq]
  omega

theorem covers_eq_false_iff (write : Write) (place : Nat) :
    write.covers place = false ↔
      place < write.address ∨ write.address + write.bytes.length ≤ place := by
  rw [Bool.eq_false_iff, ne_eq, covers_iff]
  omega

theorem misses_iff (write : Write) {start stop : Nat} (some : start < stop) :
    write.Misses start stop ↔
      write.bytes.length = 0 ∨ write.address + write.bytes.length ≤ start ∨
        stop ≤ write.address := by
  constructor
  · intro misses
    have first := misses start (Nat.le_refl start) some
    rw [covers_eq_false_iff] at first
    rcases first with below | above
    · by_cases inside : write.address < stop
      · have own := misses write.address (Nat.le_of_lt below) inside
        rw [covers_eq_false_iff] at own
        omega
      · omega
    · omega
  · intro apart place lower upper
    rw [covers_eq_false_iff]
    omega

theorem byte_eq_none_iff (write : Write) (place : Nat) :
    write.byte? place = none ↔ write.covers place = false := by
  unfold byte?
  cases covered : write.covers place with
  | false => simp
  | true =>
      rw [covers_iff] at covered
      rw [if_pos rfl, List.getElem?_eq_none_iff]
      simp only [reduceCtorEq, iff_false]
      omega

theorem byte_inside (write : Write) {offset : Nat} (inside : offset < write.bytes.length) :
    write.byte? (write.address + offset) = some write.bytes[offset] := by
  have covered : write.covers (write.address + offset) = true := by
    rw [covers_iff]
    omega
  rw [byte?, if_pos covered, Nat.add_sub_cancel_left, List.getElem?_eq_getElem inside]

end Write

/-- The byte that the last write over a place stores there. -/
def lastByte : List Write → Nat → Option Byte
  | [], _ => none
  | write :: later, place => (lastByte later place).or (write.byte? place)

theorem last_byte_append (first second : List Write) (place : Nat) :
    lastByte (first ++ second) place = (lastByte second place).or (lastByte first place) := by
  induction first with
  | nil => simp only [List.nil_append, lastByte, Option.or_none]
  | cons write later ih => simp only [List.cons_append, lastByte, ih, Option.or_assoc]

theorem last_byte_eq_none_iff (writes : List Write) (place : Nat) :
    lastByte writes place = none ↔ ∀ write ∈ writes, write.covers place = false := by
  induction writes with
  | nil => simp [lastByte]
  | cons write later ih =>
      rw [lastByte, Option.or_eq_none_iff, ih, Write.byte_eq_none_iff, List.forall_mem_cons,
        and_comm]

namespace Memory

def replay (memory : Memory) (writes : List Write) : Memory :=
  writes.foldl (fun memory write => memory.store write.address write.bytes) memory

@[simp]
theorem replay_nil (memory : Memory) : memory.replay [] = memory := rfl

@[simp]
theorem replay_cons (memory : Memory) (write : Write) (later : List Write) :
    memory.replay (write :: later) = (memory.store write.address write.bytes).replay later := rfl

theorem replay_append (memory : Memory) (first second : List Write) :
    memory.replay (first ++ second) = (memory.replay first).replay second :=
  List.foldl_append

theorem byte_at_store (memory : Memory) (write : Write) (place : Nat) :
    (memory.store write.address write.bytes).byteAt place =
      (write.byte? place).getD (memory.byteAt place) := by
  cases covered : write.covers place with
  | false =>
      have none := (write.byte_eq_none_iff place).mpr covered
      rw [none, Option.getD_none]
      exact memory.byteAt_store_outside ((write.covers_eq_false_iff place).mp covered)
  | true =>
      have range := (write.covers_iff place).mp covered
      obtain ⟨offset, rfl⟩ := Nat.exists_eq_add_of_le range.1
      have inside : offset < write.bytes.length := by omega
      rw [write.byte_inside inside, Option.getD_some]
      exact memory.byteAt_store_inside inside

/-- The last writer of a place decides what it holds. -/
theorem byte_at_replay (memory : Memory) (writes : List Write) (place : Nat) :
    (memory.replay writes).byteAt place = (lastByte writes place).getD (memory.byteAt place) := by
  induction writes generalizing memory with
  | nil => rfl
  | cons write later ih =>
      rw [replay_cons, ih, byte_at_store, lastByte]
      cases lastByte later place <;> simp only [Option.getD_none, Option.getD_some, Option.none_or,
        Option.some_or]

theorem byte_at_replay_outside (memory : Memory) {writes : List Write} {place : Nat}
    (outside : ∀ write ∈ writes, write.covers place = false) :
    (memory.replay writes).byteAt place = memory.byteAt place := by
  rw [byte_at_replay, (last_byte_eq_none_iff writes place).mpr outside, Option.getD_none]

/-- Writes that come again behind themselves make no difference: the last writer of a place is the
same. -/
theorem replay_again (memory : Memory) {issued writes : List Write}
    (repeated : ∀ write ∈ issued, write ∈ writes) :
    (memory.replay issued).replay writes = memory.replay writes := by
  apply Memory.ext
  funext place
  rw [(memory.replay issued).byte_at_replay writes, memory.byte_at_replay writes]
  cases last : lastByte writes place with
  | some byte => rfl
  | none =>
      have outside := (last_byte_eq_none_iff writes place).mp last
      rw [Option.getD_none, Option.getD_none]
      apply memory.byte_at_replay_outside
      intro write member
      exact outside write (repeated write member)

theorem peek_congr {first second : Memory} {address length : Nat}
    (same : ∀ offset, offset < length →
      first.byteAt (address + offset) = second.byteAt (address + offset)) :
    first.peek address length = second.peek address length := by
  apply List.map_congr_left
  intro offset member
  exact same offset (List.mem_range.mp member)

def Shows (memory : Memory) (address : Nat) (bytes : Bytes) : Prop :=
  memory.peek address bytes.length = bytes

theorem shows_iff (memory : Memory) (address : Nat) (bytes : Bytes) :
    memory.Shows address bytes ↔
      ∀ offset, (inside : offset < bytes.length) →
        memory.byteAt (address + offset) = bytes[offset] := by
  constructor
  · intro shown offset inside
    have byte := congrArg (fun peeked => peeked[offset]?) shown
    simp only [peek, List.getElem?_map, List.getElem?_range inside, Option.map_some,
      List.getElem?_eq_getElem inside, Option.some.injEq] at byte
    exact byte
  · intro same
    apply List.ext_getElem (memory.length_peek address bytes.length)
    intro offset _ inside
    rw [← same offset inside]
    simp [peek]

/-- The bytes of a write are still there behind all writes exactly when every byte that a later
write covers was last given the same value. -/
theorem shows_replay_iff (memory : Memory) {writes : List Write} {write : Write} {index : Nat}
    (issued : writes[index]? = some write) :
    (memory.replay writes).Shows write.address write.bytes ↔
      ∀ offset, (within : offset < write.bytes.length) → ∀ byte,
        lastByte (writes.drop (index + 1)) (write.address + offset) = some byte →
          byte = write.bytes[offset] := by
  obtain ⟨inside, own⟩ := List.getElem?_eq_some_iff.mp issued
  have split : writes = writes.take index ++ write :: writes.drop (index + 1) := by
    rw [← own, List.getElem_cons_drop, List.take_append_drop]
  have held : ∀ offset, (within : offset < write.bytes.length) →
      (memory.replay writes).byteAt (write.address + offset) =
        (lastByte (writes.drop (index + 1)) (write.address + offset)).getD
          write.bytes[offset] := by
    intro offset within
    -- A later write decides first, then this one; writes in front of it do not show any more.
    have last : lastByte writes (write.address + offset) =
        ((lastByte (writes.drop (index + 1)) (write.address + offset)).or
          (some write.bytes[offset])).or
            (lastByte (writes.take index) (write.address + offset)) := by
      rw [← write.byte_inside within, ← lastByte, ← last_byte_append, ← split]
    rw [byte_at_replay, last]
    cases lastByte (writes.drop (index + 1)) (write.address + offset) <;>
      simp only [Option.none_or, Option.some_or, Option.getD_some, Option.getD_none]
  rw [shows_iff]
  constructor
  · intro shown offset within byte later
    have same := shown offset within
    rw [held offset within, later, Option.getD_some] at same
    exact same
  · intro kept offset within
    rw [held offset within]
    cases later : lastByte (writes.drop (index + 1)) (write.address + offset) with
    | none => rw [Option.getD_none]
    | some byte => rw [Option.getD_some, kept offset within byte later]

theorem shows_store_self (memory : Memory) (address : Nat) (bytes : Bytes) :
    (memory.store address bytes).Shows address bytes := by
  rw [shows_iff]
  intro offset inside
  exact memory.byteAt_store_inside inside

theorem peek_store_apart (memory : Memory) {address place length : Nat} {bytes : Bytes}
    (apart : place + length ≤ address ∨ address + bytes.length ≤ place) :
    (memory.store address bytes).peek place length = memory.peek place length := by
  apply peek_congr
  intro offset inside
  apply memory.byteAt_store_outside
  omega

theorem peek_word_of_shows {memory : Memory} {address : Nat} {word : UInt32}
    (shown : memory.Shows address (Word.bytes word)) : memory.peekWord address = word := by
  rw [Shows, Word.length_bytes] at shown
  rw [peekWord, shown]
  simpa using Word.ofBytes_bytes_append word []

theorem peek_word_store_self (memory : Memory) (address : Nat) (word : UInt32) :
    (memory.store address (Word.bytes word)).peekWord address = word :=
  peek_word_of_shows (memory.shows_store_self address (Word.bytes word))

theorem peek_word_store_apart (memory : Memory) {address place : Nat} {bytes : Bytes}
    (apart : place + 4 ≤ address ∨ address + bytes.length ≤ place) :
    (memory.store address bytes).peekWord place = memory.peekWord place := by
  rw [peekWord, peekWord, memory.peek_store_apart apart]

end Memory

namespace Node

/-- The node went on by taking writes; it may have answered reads besides. -/
structure Took (before : Node) (writes : List Write) (after : Node) : Prop where
  memory : after.memory = before.memory.replay writes
  log : after.writes = before.writes ++ writes
  absent : after.absent = before.absent

theorem Took.refl (node : Node) : node.Took [] node :=
  ⟨rfl, by simp, rfl⟩

theorem Took.trans {first second third : Node} {earlier later : List Write}
    (begun : first.Took earlier second) (continued : second.Took later third) :
    first.Took (earlier ++ later) third := by
  constructor
  · rw [continued.memory, begun.memory, Memory.replay_append]
  · rw [continued.log, begun.log, List.append_assoc]
  · rw [continued.absent, begun.absent]

theorem Took.present {before after : Node} {writes : List Write} (took : before.Took writes after)
    (present : before.absent = false) : after.absent = false := by
  rw [took.absent, present]

theorem Took.unchanged {before after : Node} (took : before.Took [] after) :
    after.memory = before.memory := by
  rw [took.memory, Memory.replay_nil]

theorem Took.issued {before after : Node} {writes : List Write} (took : before.Took writes after) :
    after.writes.drop before.writes.length = writes := by
  rw [took.log, List.drop_left]

end Node
end RemoteBoot
