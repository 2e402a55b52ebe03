import RemoteBoot.Proofs.Command.Recording

/-!
# The calls of a command

On a machine that keeps every call of the bus program a command makes the calls that its line asks
for: those of one transfer at the typed address and with the typed word, those of the configuration
ROM, or those that write what the typed image provides.
-/

set_option autoImplicit false

namespace RemoteBoot.Command.ToolCommand

open BusProgram

section Accesses

/-- The writes that load a segment. -/
def segmentStores (image : Image) (segment : Image.Segment) : List Write :=
  if segment.memorySize = 0 then []
  else
    match image.physicalAddress segment.virtualAddress with
    | .error _ => []
    | .ok target =>
      (if segment.fileSize ≠ 0 then [⟨target, image.segmentData segment⟩] else []) ++
        if segment.zeroFill ≠ 0 then
          [⟨target + segment.fileSize, List.replicate segment.zeroFill 0⟩]
        else []

/-- The calls of writes one behind the other. -/
def callsOf (bus : BusSettings) (writes : List Write) : List Call :=
  writes.flatMap fun write => storeCalls bus write.address write.bytes

theorem calls_of_append (bus : BusSettings) (writes later : List Write) :
    callsOf bus (writes ++ later) = callsOf bus writes ++ callsOf bus later :=
  List.flatMap_append

variable (settings : Settings) (files : FileSource)

/-- The calls of the bus program that a command asks for, on a machine with these files. -/
inductive Plans : ToolCommand → List Call → Prop where
  | peek {address length : Nat} {spans : List Span} (splits : Splits address length spans)
      (addressed : ∀ span ∈ spans, span.address < 0x10000000000000000) :
      Plans (.peek address length) (spans.map (readCall settings.bus))
  | poke {address : Nat} {word : UInt32} {calls : List Call}
      (feeds : Feeds settings.bus address (Word.bytes word) calls) : Plans (.poke address word) calls
  | interrupt {vector : UInt8} {calls : List Call}
      (feeds : Feeds settings.bus 0xfee00000 [vector, 0, 0, 0] calls) :
      Plans (.interrupt vector) calls
  /-- The probe may break off; the whole of the ROM is read behind it. -/
  | rom {probe : List Call} {vendor model quadlets : List Span}
      (first : Splits 0xfffff0000418 4 vendor) (second : Splits 0xfffff000041c 4 model)
      (all : Splits 0xfffff0000400 0x400 quadlets)
      (probed : probe <+: (vendor ++ model).map (readCall settings.bus)) :
      Plans .rom (probe ++ quadlets.map (readCall settings.bus))
  | load {path : Path} {image : Image} (opened : (Image.ofFile files path).result = .ok image) :
      Plans (.load path) (callsOf settings.bus (image.segments.flatMap (segmentStores image)))
  /-- Without an image nothing is done. -/
  | unread {path : Path} (refused : ∀ image, (Image.ofFile files path).result ≠ .ok image) :
      Plans (.load path) []
  | reboot {hypervisor : Option Path} {image : Image} {table handler : Nat}
      (opened : (Image.ofFile files (hypervisor.getD settings.hypervisor)).result = .ok image)
      (found : image.symbolPhysical settings.tableSymbol = .ok table)
      (known : image.symbol settings.resetSymbol = .ok handler) :
      Plans (.reboot hypervisor) (callsOf settings.bus (Restart.Controller.commands table handler))
  /-- Without an image that has both symbols nothing is done. -/
  | unready {hypervisor : Option Path}
      (refused : ∀ image table handler,
        (Image.ofFile files (hypervisor.getD settings.hypervisor)).result = .ok image →
        image.symbolPhysical settings.tableSymbol = .ok table →
          image.symbol settings.resetSymbol ≠ .ok handler) :
      Plans (.reboot hypervisor) []

end Accesses

section Runs

variable {ρ : Type} (machine : Machine ρ) (bus : BusSettings)

/-- A run added a front of calls that were planned, and if it succeeded all of them. -/
def Obeys (planned : List Call → Prop) (kept : Console (ρ × List Exchange))
    (left : Outcome (Console (ρ × List Exchange)) Unit) : Prop :=
  ∃ record, left.node.record = kept.record ++ record ∧
    (∃ plan, planned plan ∧ record.map Exchange.call <+: plan) ∧
      (left.result = .ok () → planned (record.map Exchange.call))

theorem obeys_of_follows {action : Engine (Console (ρ × List Exchange)) Unit}
    {planned : List Call → Prop} {plan : List Call} (follows : Follows Console.record action plan)
    (chosen : planned plan) (kept : Console (ρ × List Exchange)) :
    Obeys planned kept (action kept) := by
  obtain ⟨record, grown, front, whole⟩ := follows.own kept
  refine ⟨record, grown, ⟨plan, chosen, front⟩, ?_⟩
  intro succeeded
  rw [whole () succeeded]
  exact chosen

/-- What is done with an image depends on what is in its file. -/
theorem obeys_behind_image {path : Path} {kept : Console (ρ × List Exchange)}
    {next : Image → Engine (Console (ρ × List Exchange)) Unit} {planned : List Call → Prop}
    (opened : ∀ image, (Image.ofFile (machine.files kept.machine.1) path).result = .ok image →
      Obeys planned kept (next image kept))
    (refused : (∀ image, (Image.ofFile (machine.files kept.machine.1) path).result ≠ .ok image) →
      planned []) :
    Obeys planned kept ((Console.openImage machine.recorded.files path >>= next) kept) := by
  have read : (Console.openImage machine.recorded.files path kept).result =
      (Image.ofFile (machine.files kept.machine.1) path).result := rfl
  cases reached : (Image.ofFile (machine.files kept.machine.1) path).result with
  | ok image =>
      have left := Engine.bind_of_ok next (read.trans reached)
      obtain ⟨record, grown, front, whole⟩ := opened image reached
      refine ⟨record, ?_, front, ?_⟩
      · rw [left.2]
        exact grown
      · rw [left.1]
        exact whole
  | error stop =>
      have left := Engine.bind_of_error next (read.trans reached)
      have nothing : planned [] := by
        apply refused
        intro image other
        rw [reached] at other
        cases other
      refine ⟨[], ?_, ⟨[], nothing, List.nil_prefix⟩, fun _ => nothing⟩
      rw [left.2]
      exact (List.append_nil kept.record).symm

theorem print_follows (line : String) :
    Follows Console.record (Console.print line : Engine (Console (ρ × List Exchange)) Unit) [] :=
  Follows.of_silent fun _ => rfl

theorem print_all_follows {α : Type} (lineOf : α → String) (values : List α) :
    Follows Console.record
      (values.forM fun value => (Console.print (lineOf value) :
        Engine (Console (ρ × List Exchange)) Unit)) [] := by
  induction values with
  | nil => exact Follows.pure ()
  | cons value values ih => exact (print_follows _).behind_silent fun _ => ih

theorem set_purpose_follows (purpose : String) :
    Follows Console.record
      (Console.setPurpose purpose : Engine (Console (ρ × List Exchange)) Unit) [] :=
  Follows.of_silent fun _ => rfl

theorem dump_follows (lines address offset : Nat) (bytes : Bytes) :
    Follows Console.record
      (dump lines address offset bytes : Engine (Console (ρ × List Exchange)) Unit) [] := by
  induction lines generalizing offset bytes with
  | zero => exact Follows.pure ()
  | succ lines ih =>
      cases bytes with
      | nil => exact Follows.pure ()
      | cons byte bytes =>
          apply (Follows.of_checked _).behind_silent
          intro place
          exact (print_follows _).behind_silent fun _ => ih _ _

/-- The bus of a console whose machine keeps all calls. -/
abbrev recordedBus : Remote (Console (ρ × List Exchange)) :=
  BusProgram.remote (Console.launch machine.recorded.launch) bus

theorem fetch_follows_calls (address length : Nat) :
    Follows Console.record ((recordedBus machine bus).fetch address length)
      (fetchCalls bus address length) :=
  (fetch_follows machine.launch bus address length).of_part
    ((Console.machine_answers machine.recorded).reads bus address length)

theorem store_follows_calls (address : Nat) (bytes : Bytes) :
    Follows Console.record ((recordedBus machine bus).store address bytes)
      (callsOf bus [⟨address, bytes⟩]) := by
  rw [callsOf, List.flatMap_singleton]
  exact (store_follows machine.launch bus address bytes).of_part
    ((Console.machine_answers machine.recorded).writes bus address bytes)

theorem store_zeros_follows (target : Nat) (segment : Image.Segment) :
    Follows Console.record (Image.storeZeros (recordedBus machine bus) target segment)
      (callsOf bus (if segment.zeroFill ≠ 0 then
        [⟨target + segment.fileSize, List.replicate segment.zeroFill 0⟩] else [])) := by
  unfold Image.storeZeros
  split
  · by_cases fits : target + segment.fileSize < 0x10000000000000000
    · rw [Checked.sum_of_lt fits, Engine.of_checked_ok, pure_bind]
      by_cases small : segment.zeroFill < 0x8000000000000000
      · rw [Checked.zeros_of_lt small, Engine.of_checked_ok, pure_bind]
        exact store_follows_calls machine bus _ _
      · rw [Checked.zeros_of_le (Nat.not_lt.mp small), Engine.of_checked_error_bind]
        exact Follows.of_stop _ _
    · rw [Checked.sum_of_le (Nat.not_lt.mp fits), Engine.of_checked_error_bind]
      exact Follows.of_stop _ _
  · exact Follows.pure ()

theorem segment_follows (image : Image) (segment : Image.Segment) :
    Follows Console.record (Image.loadSegmentTo (recordedBus machine bus) image segment)
      (callsOf bus (segmentStores image segment)) := by
  rw [Image.load_segment_eq, segmentStores]
  split
  · exact Follows.pure ()
  · cases image.physicalAddress segment.virtualAddress with
    | error stop => exact Follows.of_stop stop []
    | ok target =>
        rw [Engine.of_checked_ok, pure_bind]
        simp only [calls_of_append]
        apply (Follows.note _ _ _).behind_silent
        intro noted
        apply Follows.bind
        · split
          · exact store_follows_calls machine bus _ _
          · exact Follows.pure ()
        · intro stored
          exact store_zeros_follows machine bus target segment

theorem load_follows (image : Image) :
    Follows Console.record (image.load (recordedBus machine bus))
      (callsOf bus (image.segments.flatMap (segmentStores image))) := by
  have all : Follows Console.record
      (image.segments.forM (Image.loadSegmentTo (recordedBus machine bus) image))
      (callsOf bus (image.segments.flatMap (segmentStores image))) := by
    induction image.segments with
    | nil => exact Follows.pure ()
    | cons segment segments ih =>
        rw [List.flatMap_cons, calls_of_append]
        exact (segment_follows machine bus image segment).bind fun _ => ih
  exact all.before_silent fun loaded => Follows.pure image.entry

theorem reboot_follows {controller : Restart.Controller} {table handler : Nat}
    (found : controller.image.symbolPhysical controller.tableSymbol = .ok table)
    (known : controller.image.symbol controller.resetSymbol = .ok handler) :
    Follows Console.record (controller.reboot (recordedBus machine bus))
      (callsOf bus (Restart.Controller.commands table handler)) := by
  have noted (level : Level) (origin : Origin) (text : String) (address : Nat) (bytes : Bytes) :
      Follows Console.record (Engine.note level origin text >>= fun _ =>
        (recordedBus machine bus).store address bytes) (callsOf bus [⟨address, bytes⟩]) :=
    (Follows.note level origin text).behind_silent fun _ =>
      store_follows_calls machine bus address bytes
  have listed : Restart.Controller.commands table handler =
      [⟨table + 16, (Restart.Gate.ofHandler handler).toBytes⟩] ++
        ([⟨0xfee00000, Word.bytes 0x500⟩] ++ [⟨0xfee00000, Word.bytes 0x400⟩]) := rfl
  have counted := Restart.Controller.gate_address_of_table found
  by_cases fits : table + 16 < 0x10000000000000000
  · rw [Checked.sum_of_lt fits] at counted
    rw [Restart.Controller.reboot_eq _ counted known, listed, calls_of_append, calls_of_append]
    simp only [Restart.Controller.send_eq]
    exact (noted _ _ _ _ _).bind fun _ => (noted _ _ _ _ _).bind fun _ => noted _ _ _ _ _
  · rw [Checked.sum_of_le (Nat.not_lt.mp fits)] at counted
    rw [Restart.Controller.reboot_without_gate _ counted]
    exact Follows.of_stop _ _

/-- A reboot without one of its symbols makes no calls. -/
theorem reboot_follows_nothing {controller : Restart.Controller}
    (missing : ∀ table handler,
      controller.image.symbolPhysical controller.tableSymbol = .ok table →
        controller.image.symbol controller.resetSymbol ≠ .ok handler) :
    Follows Console.record (controller.reboot (recordedBus machine bus)) [] := by
  cases placed : controller.gateAddress with
  | error stop =>
      rw [Restart.Controller.reboot_without_gate _ placed]
      exact Follows.of_stop stop []
  | ok address =>
      obtain ⟨table, found, _⟩ := ok_of_bind_ok placed
      cases known : controller.image.symbol controller.resetSymbol with
      | error fault =>
          rw [Restart.Controller.reboot_without_handler _ placed known]
          exact Follows.fail fault
      | ok handler => exact absurd known (missing table handler found)

theorem fetch_calls_plan {address length : Nat} {spans : List Span}
    (planned : plan bus.blockSize.toNat address length = .ok spans) :
    fetchCalls bus address length = spans.map (readCall bus) := by
  rw [fetchCalls, spansOf, planned]
  rfl

/-- A short read within 64 bits makes the calls that split it. -/
theorem fetch_calls_split {address length : Nat} (short : length < 0x100000000)
    (below : address + length ≤ 0x10000000000000000) :
    ∃ spans, Splits address length spans ∧
      fetchCalls bus address length = spans.map (readCall bus) := by
  obtain ⟨spans, planned⟩ := plan_ok_of_le bus.blockSize.toNat below
  have splits := splits_of_planned planned (countable_of_short bus.blockSize.toNat short)
  exact ⟨spans, splits, fetch_calls_plan bus planned⟩

/-- A word within 64 bits is fed to its calls. -/
theorem word_calls_feed {address : Nat} (word : UInt32)
    (below : address + 4 ≤ 0x10000000000000000) :
    Feeds bus address (Word.bytes word) (storeCalls bus address (Word.bytes word)) := by
  have length : (Word.bytes word).length = 4 := Word.length_bytes word
  obtain ⟨spans, planned⟩ := plan_ok_of_le bus.blockSize.toNat (length.symm ▸ below)
  rw [storeCalls, spansOf, planned]
  apply (feeds_parcels_iff bus planned).mpr
  rw [length]
  exact countable_of_short bus.blockSize.toNat (by decide)

/-- A read makes the calls that split it, or it crashes at an address that 64 bits cannot hold and
makes none. -/
theorem peek_follows {address length : Nat} (starts : address < 0x10000000000000000)
    (short : length < 0x100000000) :
    ∃ spans, Splits address length spans ∧
      (∀ span ∈ spans, span.address < 0x10000000000000000) ∧
      Follows Console.record ((recordedBus machine bus).fetch address length)
        (spans.map (readCall bus)) := by
  cases planned : plan bus.blockSize.toNat address length with
  | ok spans =>
      have few := countable_of_short bus.blockSize.toNat short
      refine ⟨spans, splits_of_planned planned few, addresses_of_planned planned starts, ?_⟩
      rw [← fetch_calls_plan bus planned]
      exact fetch_follows_calls machine bus address length
  | error stop =>
      have some : 0 < length := by
        have large := (plan_error planned).2
        omega
      have crashed : (recordedBus machine bus).fetch address length =
          Engine.ofChecked (.error (.crash .sumOverflow)) := by
        funext kept
        rw [Remote.fetch, Transfer.toEngine, read_of_unplanned _ bus planned]
        rfl
      refine ⟨[⟨address, length, 1⟩], ⟨⟨rfl, trivial⟩, ?_, ?_⟩, ?_, ?_⟩
      · simp [Span.length]
      · intro span member
        rw [List.mem_singleton.mp member, Span.length, Nat.mul_one]
        exact some
      · intro span member
        rw [List.mem_singleton.mp member]
        exact starts
      · rw [crashed]
        exact Follows.of_stop _ _

theorem bytes_of_vector (vector : UInt8) : Word.bytes vector.toUInt32 = [vector, 0, 0, 0] := by
  have high : vector.toNat / 256 = 0 := Nat.div_eq_of_lt vector.toNat_lt
  simp only [Word.bytes, Word.littleEndian, UInt8.toNat_toUInt32, high, UInt8.ofNat_toNat]
  rfl

theorem quadlet_follows (index : Nat) :
    Follows Console.record (Rom.readQuadlet (recordedBus machine bus) index)
      (fetchCalls bus (Rom.quadletAddress index) 4) := by
  apply (fetch_follows_calls machine bus _ _).before_silent
  intro bytes
  split
  · exact Follows.pure _
  · exact Follows.fail _

/-- A probe reads the vendor and the model, and is content with what it gets. -/
theorem discover_issues :
    Issues Console.record (Rom.discover (recordedBus machine bus))
      (· <+: fetchCalls bus 0xfffff0000418 4 ++ fetchCalls bus 0xfffff000041c 4)
      (· <+: fetchCalls bus 0xfffff0000418 4 ++ fetchCalls bus 0xfffff000041c 4) := by
  have identity : Follows Console.record (Rom.readIdentity (recordedBus machine bus))
      (fetchCalls bus 0xfffff0000418 4 ++ fetchCalls bus 0xfffff000041c 4) :=
    (quadlet_follows machine bus Rom.vendorIndex).bind fun vendor =>
      (quadlet_follows machine bus Rom.modelIndex).before_silent fun model => Follows.pure _
  refine identity.attempt.bind (fun attempted => (?_ : Follows Console.record _ [])) ?_ ?_ ?_
  · cases attempted with
    | ok discovery => exact Follows.pure discovery
    | error fault => exact (Follows.note _ _ _).behind_silent fun _ => Follows.pure _
  · exact fun calls front => front
  · intro calls more front nothing
    rwa [List.prefix_nil.mp nothing, List.append_nil]
  · rintro calls more front rfl
    rwa [List.append_nil]

theorem rom_issues (settings : Settings) (files : FileSource) :
    Issues Console.record (ToolCommand.program machine.recorded .rom settings)
      (fun calls => ∃ plan, Plans settings files .rom plan ∧ calls <+: plan)
      (Plans settings files .rom) := by
  obtain ⟨vendor, first, vendorCalls⟩ := fetch_calls_split settings.bus
    (by decide : 4 < 0x100000000) (by decide : 0xfffff0000418 + 4 ≤ 0x10000000000000000)
  obtain ⟨model, second, modelCalls⟩ := fetch_calls_split settings.bus
    (by decide : 4 < 0x100000000) (by decide : 0xfffff000041c + 4 ≤ 0x10000000000000000)
  obtain ⟨quadlets, all, romCalls⟩ := fetch_calls_split settings.bus
    (by decide : 0x400 < 0x100000000) (by decide : 0xfffff0000400 + 0x400 ≤ 0x10000000000000000)
  have probes := discover_issues machine settings.bus
  rw [vendorCalls, modelCalls, ← List.map_append] at probes
  have planned {probe : List Call}
      (probed : probe <+: (vendor ++ model).map (readCall settings.bus)) :
      Plans settings files .rom (probe ++ quadlets.map (readCall settings.bus)) :=
    .rom first second all probed
  have read : Follows Console.record
      (Rom.readRom (recordedBus machine settings.bus) shownQuadlets)
      (quadlets.map (readCall settings.bus)) := by
    rw [Rom.readRom, if_pos (by decide), ← romCalls]
    exact (fetch_follows_calls machine settings.bus _ _).before_silent fun _ => Follows.pure _
  -- A node that is not answering ends the probe early; the calls behind it are the same.
  refine probes.bind (fun discovery =>
    (?_ : Follows Console.record _ (quadlets.map (readCall settings.bus)))) ?_ ?_ ?_
  · apply (print_follows _).behind_silent
    intro shown
    exact read.before_silent fun found => print_all_follows _ _
  · intro calls probed
    exact ⟨_, planned probed, List.prefix_append calls _⟩
  · intro calls more probed front
    exact ⟨_, planned probed, (List.prefix_append_right_inj calls).mpr front⟩
  · rintro calls more probed rfl
    exact planned probed

/-- On a machine that keeps all calls a command makes those it asks for. -/
theorem program_obeys {command : ToolCommand} (fits : command.Fits) (settings : Settings)
    (kept : Console (ρ × List Exchange)) :
    Obeys (Plans settings (machine.files kept.machine.1) command) kept
      (command.program machine.recorded settings kept) := by
  cases command with
  | reboot hypervisor =>
      apply obeys_behind_image
      · intro image opened
        by_cases ready : ∃ table handler, image.symbolPhysical settings.tableSymbol = .ok table ∧
            image.symbol settings.resetSymbol = .ok handler
        · obtain ⟨table, handler, found, known⟩ := ready
          refine obeys_of_follows ?_ (Plans.reboot opened found known) kept
          exact (set_purpose_follows _).behind_silent fun _ =>
            reboot_follows machine settings.bus found known
        · have missing (table handler : Nat)
              (found : image.symbolPhysical settings.tableSymbol = .ok table) :
              image.symbol settings.resetSymbol ≠ .ok handler :=
            fun known => ready ⟨table, handler, found, known⟩
          have planned : Plans settings (machine.files kept.machine.1) (.reboot hypervisor) [] := by
            apply Plans.unready
            intro other table handler same found
            rw [opened] at same
            cases same
            exact missing table handler found
          refine obeys_of_follows ?_ planned kept
          exact (set_purpose_follows _).behind_silent fun _ =>
            reboot_follows_nothing machine settings.bus missing
      · intro refused
        exact Plans.unready fun image _ _ opened => absurd opened (refused image)
  | load path =>
      apply obeys_behind_image
      · intro image opened
        refine obeys_of_follows ?_ (Plans.load opened) kept
        exact (set_purpose_follows _).behind_silent fun _ =>
          (load_follows machine settings.bus image).before_silent fun _ => print_follows _
      · exact Plans.unread
  | peek address length =>
      obtain ⟨spans, splits, addressed, follows⟩ := peek_follows machine settings.bus fits.1 fits.2
      refine obeys_of_follows ?_ (Plans.peek splits addressed) kept
      exact follows.before_silent fun bytes => dump_follows _ _ _ _
  | poke address word =>
      obtain ⟨starts, aligned⟩ := fits
      have feeds := word_calls_feed settings.bus word (by omega : address + 4 ≤ 0x10000000000000000)
      refine obeys_of_follows ?_ (Plans.poke feeds) kept
      rw [ToolCommand.program, Remote.storeWord, if_neg (fun unaligned => unaligned aligned)]
      have stored := store_follows_calls machine settings.bus address (Word.bytes word)
      rwa [callsOf, List.flatMap_singleton] at stored
  | rom =>
      obtain ⟨record, grown, front, whole⟩ :=
        (rom_issues machine settings (machine.files kept.machine.1)).own kept
      exact ⟨record, grown, front, whole ()⟩
  | interrupt vector =>
      have feeds := word_calls_feed settings.bus vector.toUInt32
        (by decide : 0xfee00000 + 4 ≤ 0x10000000000000000)
      have stored := store_follows_calls machine settings.bus 0xfee00000
        (Word.bytes vector.toUInt32)
      rw [callsOf, List.flatMap_singleton] at stored
      have planned : Plans settings (machine.files kept.machine.1) (.interrupt vector)
          (storeCalls settings.bus 0xfee00000 (Word.bytes vector.toUInt32)) := by
        rw [bytes_of_vector] at feeds ⊢
        exact Plans.interrupt feeds
      refine obeys_of_follows ?_ planned kept
      rw [ToolCommand.program, Restart.Controller.send_eq]
      exact (Follows.note _ _ _).behind_silent fun _ => stored

end Runs

/-- The accepted command lines are those that ask for a command, and the command is the one asked
for; every other command line is a wrong use.  What is carried out does not depend on whether calls
are kept, never trips the check of a word boundary, and makes only the calls that were asked for, on
any machine. -/
theorem commands_do_as_typed (arguments : List Text) :
    (∀ command, parse arguments = .ok command ↔ Asks arguments command) ∧
    ((∀ command, ¬ Asks arguments command) → ∃ error, parse arguments = .error error ∧
      ∀ host, tool arguments host = some (Exit.misused host error toolUsage)) ∧
    ∀ command, Asks arguments command →
      (∀ host, tool arguments host = Exit.ofProgram "fwtool" (fun settings => do
        command.program hostMachine settings
        pure .ended) host) ∧
      ∀ {ρ : Type} (machine : Machine ρ) settings (console : Console ρ),
        let plain := command.program machine settings console
        let left := command.program machine.recorded settings console.unrecorded
        let calls := left.node.record.map Exchange.call
        (left.result = plain.result ∧ left.node.forget = plain.node) ∧
        (∀ address, plain.result ≠ .error (.crash (.misaligned address))) ∧
        (∃ plan, Plans settings (machine.files console.machine) command plan ∧ calls <+: plan) ∧
        (plain.result = .ok () →
          Plans settings (machine.files console.machine) command calls) := by
  refine ⟨parse_iff arguments, ?_, ?_⟩
  · intro nothing
    obtain ⟨error, refused⟩ := parse_refused nothing
    refine ⟨error, refused, fun host => ?_⟩
    rw [tool, refused]
  · intro command asks
    refine ⟨fun host => by rw [tool, parsed_of_asks asks], ?_⟩
    intro ρ machine settings console plain left calls
    have tracks := program_tracks machine command settings
    have near : Console.Forgets console.unrecorded console := rfl
    have result : left.result = plain.result := tracks.result near
    have node : left.node.forget = plain.node := tracks.node near
    have fits := fits_of_asks asks
    obtain ⟨record, grown, front, whole⟩ := program_obeys machine fits settings console.unrecorded
    have made : calls = record.map Exchange.call := congrArg (List.map Exchange.call) grown
    refine ⟨⟨result, node⟩, ?_, ?_, ?_⟩
    · intro address crashed
      exact (program_trips machine fits settings).own console _ crashed address rfl
    · rw [made]
      exact front
    · intro succeeded
      rw [made]
      exact whole (result.trans succeeded)

/-- A machine with a bus program that is always content and without files. -/
def contentMachine : Machine Unit where
  launch _ host := (.ok ⟨.code 0, [], [], none⟩, host)
  files _ := (MemoryFiles.ofList []).source

theorem poke_does_as_typed :
    let arguments := ["poke".toList, "0xfee00000".toList, "1024".toList]
    let left := ToolCommand.program contentMachine.recorded (.poke 0xfee00000 1024) {}
      { machine := ((), []) }
    parse arguments = .ok (.poke 0xfee00000 1024) ∧
      left.node.record.map Exchange.call = [⟨"fwcat".toList, ["-n".toList, "0".toList, "-w".toList,
        "-a".toList, "0xfee00000".toList, "-s".toList, "0x4".toList, "-c".toList, "0x1".toList],
        [0, 4, 0, 0]⟩] ∧
      Plans {} (contentMachine.files ()) (.poke 0xfee00000 1024)
        (left.node.record.map Exchange.call) := by
  intro arguments left
  have asks : Asks arguments (.poke 0xfee00000 1024) :=
    .poke (by decide) (by decide) (by decide : _ = some 1024) (by decide) (by decide)
  obtain ⟨accepted, _, does⟩ := commands_do_as_typed arguments
  obtain ⟨_, _, _, whole⟩ := (does _ asks).2 contentMachine {} { machine := () }
  have succeeds : (ToolCommand.program contentMachine (.poke 0xfee00000 1024) {}
      { machine := () }).result.toOption = some () := by
    decide +kernel
  exact ⟨(accepted _).mpr asks, by decide +kernel, whole (ok_of_to_option succeeds)⟩

end RemoteBoot.Command.ToolCommand
