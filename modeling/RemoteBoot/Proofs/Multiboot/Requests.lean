import RemoteBoot.Proofs.Multiboot.Arming
import RemoteBoot.Proofs.Multiboot.InPlace
import RemoteBoot.Proofs.Remote.Faults

/-!
# What a request can do

A request that succeeds moves the loader in one of three ways, and one that stops leaves it as it
was.  A request that a loader has grounds to refuse makes no transfer; any other request stops with a
transport fault, if it stops.
-/

set_option autoImplicit false

namespace RemoteBoot.Multiboot

open Held

variable {σ : Type}

/-- What a request that succeeds does to a loader. -/
inductive Moves (loader : Loader) : Request → Reply → Loader → Prop where
  | setAddress (unarmed : loader.phase ≠ .armed) (address : Nat) :
      Moves loader (.setAddress address) .moved { loader with cursor := address }
  | push (unarmed : loader.phase ≠ .armed) (payload : Bytes) (commandLine : Text)
      (fits : loader.cursor + payload.length < 0x100000000) :
      Moves loader (.push payload commandLine) (.pushed (loader.nextModule payload commandLine))
        (loader.taking (loader.nextModule payload commandLine))
  | arm (pushing : loader.phase = .pushing) (block : Bytes)
      (made : loader.descriptorBlock = .ok block) (aligned : loader.controlBlock % 4 = 0) :
      Moves loader .arm .armed { loader with phase := .armed }

namespace Moves

variable {loader after : Loader}

theorem of_set_address {address : Nat} {reply : Reply}
    (moves : Moves loader (.setAddress address) reply after) : loader.phase ≠ .armed := by
  cases moves with
  | setAddress unarmed => exact unarmed

theorem of_push {payload : Bytes} {commandLine : Text} {module : Module}
    (moves : Moves loader (.push payload commandLine) (.pushed module) after) :
    loader.phase ≠ .armed ∧ loader.cursor + payload.length < 0x100000000 ∧
      module = loader.nextModule payload commandLine ∧ after = loader.taking module := by
  cases moves with
  | push unarmed _ _ fits => exact ⟨unarmed, fits, rfl, rfl⟩

end Moves

/-- Why a loader refuses a request, and with which fault. -/
inductive Grounds (loader : Loader) : Request → Fault → Prop where
  | armed (armed : loader.phase = .armed) (request : Request) :
      Grounds loader request .alreadyArmed
  | idle (idle : loader.phase = .idle) : Grounds loader .arm .noModules
  | start (unarmed : loader.phase ≠ .armed) (payload : Bytes) (commandLine : Text)
      (large : 0x100000000 ≤ loader.cursor) :
      Grounds loader (.push payload commandLine) (.addressOutOfRange loader.cursor)
  | stop (unarmed : loader.phase ≠ .armed) (payload : Bytes) (commandLine : Text)
      (fits : loader.cursor < 0x100000000)
      (large : 0x100000000 ≤ loader.cursor + payload.length)
      (formed : loader.cursor + payload.length < 0x10000000000000000) :
      Grounds loader (.push payload commandLine)
        (.addressOutOfRange (loader.cursor + payload.length))
  | block (pushing : loader.phase = .pushing) (address : Nat)
      (large : loader.descriptorBlock = .error (.fault (.addressOutOfRange address))) :
      Grounds loader .arm (.addressOutOfRange address)

/-- The request ends with the fault on every node and leaves every node as it was: it makes no
transfer. -/
def Refused (loader : Loader) (request : Request) (fault : Fault) : Prop :=
  ∀ {σ : Type} (remote : Remote σ) (node : σ),
    perform remote request ⟨node, loader⟩ = ⟨.error (.fault fault), ⟨node, loader⟩, []⟩

/-- The computation stops only for addresses that 32 bits cannot hold and sums that 64 bits cannot. -/
def OnlyRanges {α : Type} (result : Except Stop α) : Prop :=
  ∀ stop, result = .error stop →
    stop = .crash .sumOverflow ∨ ∃ address, stop = .fault (.addressOutOfRange address)

namespace OnlyRanges

variable {α β : Type}

theorem ok (value : α) : OnlyRanges (.ok value) := by
  intro stop failed
  cases failed

theorem bind {first : Except Stop α} {next : α → Except Stop β} (begins : OnlyRanges first)
    (rest : ∀ value, OnlyRanges (next value)) : OnlyRanges (first >>= next) := by
  intro stop failed
  rcases error_of_bind_error failed with begun | ⟨value, _, ended⟩
  · exact begins stop begun
  · exact rest value stop ended

theorem sum (left right : Nat) : OnlyRanges (Checked.sum left right) :=
  fun _ failed => Or.inl (Checked.sum_error failed).1

theorem narrow (address : Nat) : OnlyRanges (Stop.lift (Multiboot.narrow address)) := by
  intro stop failed
  by_cases fits : address < 0x100000000
  · rw [narrow_of_lt fits] at failed
    cases failed
  · rw [narrow_of_le (Nat.not_lt.mp fits)] at failed
    cases failed
    exact Or.inr ⟨address, rfl⟩

theorem descriptor (module : Module) (line : Nat) :
    OnlyRanges (Stop.lift (module.descriptor line)) := by
  simp only [Module.descriptor, lift_bind]
  apply (narrow line).bind
  intro commandLine
  apply (narrow module.start).bind
  intro start
  apply (narrow module.stop).bind
  intro stop
  exact ok _

theorem descriptors (line : Nat) (modules : List Module) :
    OnlyRanges (Module.descriptors line modules) := by
  induction modules generalizing line with
  | nil => exact (narrow line).bind fun _ => ok []
  | cons module modules ih =>
      apply (descriptor module line).bind
      intro first
      apply (sum line _).bind
      intro next
      apply (ih next).bind
      intro others
      exact ok _

theorem block (base : Nat) (modules : List Module) : OnlyRanges (Module.block base modules) := by
  apply (sum base _).bind
  intro line
  exact (descriptors line modules).bind fun _ => ok _

theorem descriptor_block (loader : Loader) : OnlyRanges loader.descriptorBlock :=
  (sum loader.controlBlock _).bind fun base => block base loader.modules

end OnlyRanges

namespace Loader

theorem ensure_open_of_armed {loader : Loader} (armed : loader.phase = .armed) :
    loader.ensureOpen = .error .alreadyArmed := by
  rw [ensureOpen, if_pos armed]

end Loader

/-- A loader begins empty, and only at a control block that is there and lists no modules. -/
theorem begin_ok {remote : Remote σ} {controlBlock cursor : Nat} {node : σ} {begun : Loader}
    (started : (Loader.begin remote controlBlock cursor node).result = .ok begun) :
    begun = ⟨controlBlock, .idle, cursor, []⟩ ∧ controlBlock ≠ 0 ∧
      ∃ block, (ControlBlock.fetch remote controlBlock node).result = .ok block ∧
        block.modsCount = 0 := by
  unfold Loader.begin at started
  split at started
  · cases started
  · rename_i published
    obtain ⟨block, fetched, checked, _⟩ := Engine.ok_of_bind started
    split at checked
    · cases checked
    · rename_i unbooted
      cases checked
      exact ⟨rfl, published, block, fetched, Decidable.not_not.mp unbooted⟩

theorem publish_ok {remote : Remote σ} {loader : Loader} {node : σ}
    (published : (loader.publish remote node).result = .ok ()) :
    loader.phase = .pushing ∧ ∃ block, loader.descriptorBlock = .ok block := by
  unfold Loader.publish at published
  cases phase : loader.phase with
  | armed =>
      rw [phase] at published
      cases published
  | idle =>
      rw [phase] at published
      cases published
  | pushing =>
      rw [phase] at published
      obtain ⟨base, _, behind, _⟩ := Engine.ok_of_bind published
      obtain ⟨block, made, _, _⟩ := Engine.ok_of_bind behind
      exact ⟨rfl, block, made⟩

theorem store_word_ok {remote : Remote σ} {address : Nat} {word : UInt32} {node : σ}
    (stored : (remote.storeWord address word node).result = .ok ()) : address % 4 = 0 := by
  by_cases aligned : address % 4 = 0
  · exact aligned
  · rw [Remote.storeWord, if_pos aligned] at stored
    cases stored

theorem signal_ok {remote : Remote σ} {loader after : Loader} {node : σ}
    (signalled : (loader.signal remote node).result = .ok after) :
    after = { loader with phase := .armed } ∧ loader.controlBlock % 4 = 0 := by
  obtain ⟨_, _, counted, _⟩ := Engine.ok_of_bind signalled
  obtain ⟨_, stored, rest, _⟩ := Engine.ok_of_bind counted
  have aligned := store_word_ok stored
  rw [ControlBlock.modsCountOffset] at aligned
  refine ⟨?_, by omega⟩
  split at rest
  · cases rest
    rfl
  · cases rest
    rfl

theorem moves_of_ok {remote : Remote σ} {loader after : Loader} {request : Request}
    {reply : Reply} {node : σ}
    (done : (carryOut remote loader request node).result = .ok (after, reply)) :
    Moves loader request reply after := by
  cases request with
  | setAddress address =>
      by_cases armed : loader.phase = .armed
      · rw [carryOut, Loader.setAddress, Loader.ensure_open_of_armed armed] at done
        cases done
      · rw [carryOut, Loader.set_address_unarmed armed] at done
        cases done
        exact .setAddress armed address
  | push payload commandLine =>
      by_cases armed : loader.phase = .armed
      · rw [carryOut, Loader.push, Loader.ensure_open_of_armed armed] at done
        cases done
      · by_cases fits : loader.cursor + payload.length < 0x100000000
        · rw [carryOut, Loader.push_of_fits remote armed commandLine fits, bind_assoc] at done
          obtain ⟨_, _, rest, _⟩ := Engine.ok_of_bind done
          cases rest
          exact .push armed payload commandLine fits
        · obtain ⟨address, refused⟩ :=
            Loader.push_of_large remote armed commandLine (Nat.not_lt.mp fits)
          rw [carryOut, refused] at done
          cases done
  | arm =>
      rw [carryOut, Loader.arm_eq_publish_signal, bind_assoc] at done
      obtain ⟨_, published, rest, _⟩ := Engine.ok_of_bind done
      obtain ⟨pushing, block, made⟩ := publish_ok published
      obtain ⟨armed, signalled, returned, _⟩ := Engine.ok_of_bind rest
      obtain ⟨rfl, aligned⟩ := signal_ok signalled
      cases returned
      exact .arm pushing block made aligned

/-- One request leaves the loader as it was or moves it, according to how it ends. -/
theorem perform_cases (remote : Remote σ) (loader : Loader) (node : σ) (request : Request) :
    let left := perform remote request ⟨node, loader⟩
    (∃ stop, left.result = .error stop ∧ left.node.loader = loader) ∨
      ∃ reply, left.result = .ok reply ∧ Moves loader request reply left.node.loader := by
  intro left
  have result : left.result = _ := result_perform remote loader node request
  have after : left.node.loader = _ := loader_perform remote loader node request
  cases ended : (carryOut remote loader request node).result with
  | error stop =>
      rw [ended] at result after
      exact Or.inl ⟨stop, result, after⟩
  | ok value =>
      rw [ended] at result after
      rw [after]
      exact Or.inr ⟨value.2, result, moves_of_ok ended⟩

theorem moves_of_performed {remote : Remote σ} {held : Held σ} {request : Request} {reply : Reply}
    (done : (perform remote request held).result = .ok reply) :
    Moves held.loader request reply (perform remote request held).node.loader := by
  rcases perform_cases remote held.loader held.node request with
    ⟨stop, failed, _⟩ | ⟨other, result, moves⟩
  · cases done.symm.trans failed
  · cases done.symm.trans result
    exact moves

theorem refused_of_fail {loader : Loader} {request : Request} {fault : Fault}
    (fails : ∀ {σ : Type} (remote : Remote σ), carryOut remote loader request = Engine.fail fault) :
    Refused loader request fault := by
  intro σ remote node
  rw [perform_eq_settle, settle, fails remote]
  rfl

theorem refused_of_armed {loader : Loader} (armed : loader.phase = .armed) (request : Request) :
    Refused loader request .alreadyArmed := by
  apply refused_of_fail
  intro σ remote
  cases request with
  | setAddress address =>
      rw [carryOut, Loader.setAddress, Loader.ensure_open_of_armed armed]
      rfl
  | push payload commandLine =>
      rw [carryOut, Loader.push, Loader.ensure_open_of_armed armed]
      rfl
  | arm =>
      rw [carryOut, Loader.arm, armed]
      rfl

theorem refused_of_grounds {loader : Loader} {request : Request} {fault : Fault}
    (grounds : Grounds loader request fault) : Refused loader request fault := by
  cases grounds with
  | armed armed => exact refused_of_armed armed request
  | idle idle =>
      apply refused_of_fail
      intro σ remote
      rw [carryOut, Loader.arm, idle]
      rfl
  | start unarmed payload commandLine large =>
      apply refused_of_fail
      intro σ remote
      rw [carryOut, Loader.push, Loader.ensure_open_of_unarmed unarmed]
      simp only [narrow_of_le large]
      rfl
  | stop unarmed payload commandLine fits large formed =>
      apply refused_of_fail
      intro σ remote
      rw [carryOut, Loader.push, Loader.ensure_open_of_unarmed unarmed]
      simp only [narrow_of_lt fits, Checked.sum_of_lt formed, narrow_of_le large,
        Engine.of_except_ok, Engine.of_checked_ok, pure_bind]
      rfl
  | block pushing address large =>
      apply refused_of_fail
      intro σ remote
      rw [carryOut, Loader.arm, pushing]
      simp only [Loader.descriptor_address_of_refused large, large]
      rfl

/-- Behind its checks a push has only transfers to fail. -/
theorem push_in_transport {remote : Remote σ} (plain : remote.FailsInTransport) {loader : Loader}
    (unarmed : loader.phase ≠ .armed) {payload : Bytes} (commandLine : Text)
    (fits : loader.cursor + payload.length < 0x100000000) :
    Blames Fault.InTransport (loader.push remote payload commandLine) := by
  rw [Loader.push_of_fits remote unarmed commandLine fits]
  apply (plain.store _ _).bind
  intro stored
  apply (Blames.note _ _ _).bind
  intro noted
  exact Blames.pure _

/-- Once there is a descriptor block, arming has only transfers to fail: the address of the block
and the number of the modules fit in 32 bits. -/
theorem arm_in_transport {remote : Remote σ} (plain : remote.FailsInTransport) {loader : Loader}
    (pushing : loader.phase = .pushing) {block : Bytes}
    (made : loader.descriptorBlock = .ok block) :
    Blames Fault.InTransport (loader.arm remote) := by
  rw [Loader.arm, pushing]
  simp only [(Loader.descriptor_block_ok made).1, made,
    narrow_of_lt (Loader.descriptor_address_fits made), Engine.of_checked_ok, Engine.of_except_ok,
    pure_bind]
  apply (Blames.note _ _ _).bind
  intro announced
  apply (plain.store _ _).bind
  intro stored
  apply (plain.fetch_control_block _).bind
  intro control
  apply (plain.store_word _ _).bind
  intro flagged
  apply (plain.store_word _ _).bind
  intro addressed
  apply (Blames.note _ _ _).bind
  intro signalled
  apply (plain.store_word _ _).bind
  intro counted
  split
  · apply (Blames.note _ _ _).bind
    intro warned
    exact Blames.pure _
  · exact Blames.pure _

/-- An end that 64 bits cannot hold is no fault. -/
theorem push_of_overflow (remote : Remote σ) {loader : Loader} (unarmed : loader.phase ≠ .armed)
    {payload : Bytes} (commandLine : Text) (start : loader.cursor < 0x100000000)
    (large : 0x10000000000000000 ≤ loader.cursor + payload.length) :
    loader.push remote payload commandLine = Engine.crash .sumOverflow := by
  simp only [Loader.push, Loader.ensure_open_of_unarmed unarmed, narrow_of_lt start,
    Checked.sum_of_le large, Engine.of_except_ok, Engine.of_checked_crash, Engine.crash_bind,
    pure_bind]

/-- Arming that cannot form the addresses of its block does nothing else. -/
theorem arm_of_overflow (remote : Remote σ) {loader : Loader} (pushing : loader.phase = .pushing)
    {crash : Crash} (failed : loader.descriptorBlock = .error (.crash crash)) :
    loader.arm remote = Engine.crash .sumOverflow := by
  rw [Loader.arm, pushing]
  cases formed : loader.descriptorAddress with
  | error stop =>
      rw [(Checked.sum_error formed).1]
      rfl
  | ok base =>
      rcases OnlyRanges.descriptor_block loader _ failed with overflow | ⟨address, range⟩
      · rw [failed, overflow]
        rfl
      · cases range

/-- A loader has grounds to refuse a request, or the request fails in transport only. -/
theorem grounds_or_in_transport (loader : Loader) (request : Request) :
    (∃ fault, Grounds loader request fault) ∨
      ∀ {σ : Type} {remote : Remote σ}, remote.FailsInTransport →
        Blames Fault.InTransport (carryOut remote loader request) := by
  by_cases armed : loader.phase = .armed
  · exact Or.inl ⟨_, .armed armed request⟩
  · cases request with
    | setAddress address =>
        right
        intro σ remote plain
        rw [carryOut, Loader.set_address_unarmed armed]
        exact ((Blames.note _ _ _).bind fun _ => Blames.pure _).bind fun _ => Blames.pure _
    | push payload commandLine =>
        by_cases start : loader.cursor < 0x100000000
        · by_cases fits : loader.cursor + payload.length < 0x100000000
          · right
            intro σ remote plain
            exact (push_in_transport plain armed commandLine fits).bind fun _ => Blames.pure _
          · by_cases formed : loader.cursor + payload.length < 0x10000000000000000
            · exact Or.inl ⟨_, .stop armed payload commandLine start (Nat.not_lt.mp fits) formed⟩
            · right
              intro σ remote plain
              rw [carryOut, push_of_overflow remote armed commandLine start (Nat.not_lt.mp formed)]
              exact (Blames.crash _).bind fun _ => Blames.pure _
        · exact Or.inl ⟨_, .start armed payload commandLine (Nat.not_lt.mp start)⟩
    | arm =>
        cases phase : loader.phase with
        | armed => exact absurd phase armed
        | idle => exact Or.inl ⟨_, .idle phase⟩
        | pushing =>
            cases made : loader.descriptorBlock with
            | ok block =>
                right
                intro σ remote plain
                exact (arm_in_transport plain phase made).bind fun _ => Blames.pure _
            | error stop =>
                cases stop with
                | fault fault =>
                    rcases OnlyRanges.descriptor_block loader _ made with
                      overflow | ⟨address, range⟩
                    · cases overflow
                    · cases range
                      exact Or.inl ⟨_, .block phase address made⟩
                | crash crash =>
                    right
                    intro σ remote plain
                    rw [carryOut, arm_of_overflow remote phase made]
                    exact (Blames.crash _).bind fun _ => Blames.pure _

end RemoteBoot.Multiboot
