import RemoteBoot.Fault

/-!
# The journal

Notes that actions leave behind, in order.  A note has a level and the part of the engine that made
it; a threshold decides which notes are shown.  `Noted` is a computation that reads no node: it
keeps the notes made up to the point where it ended.
-/

set_option autoImplicit false

namespace RemoteBoot

inductive Level where
  | error
  | warn
  | info
  | debug
  | trace
  deriving DecidableEq, Repr

namespace Level

def rank : Level → Nat
  | .error => 1
  | .warn => 2
  | .info => 3
  | .debug => 4
  | .trace => 5

def label : Level → String
  | .error => "ERROR"
  | .warn => "WARN"
  | .info => "INFO"
  | .debug => "DEBUG"
  | .trace => "TRACE"

end Level

/-- The least important level that is shown; without one, nothing is. -/
abbrev Threshold := Option Level

namespace Threshold

def label : Threshold → String
  | none => "OFF"
  | some level => level.label

def shows (threshold : Threshold) (level : Level) : Bool :=
  match threshold with
  | none => false
  | some least => level.rank ≤ least.rank

/-- An ASCII letter in upper case. -/
def upper (character : Char) : Char :=
  if 97 ≤ character.toNat ∧ character.toNat ≤ 122 then Char.ofNat (character.toNat - 32)
  else character

/-- A threshold by its name, in ASCII letters of either case. -/
def ofName? (name : Text) : Option Threshold :=
  [none, some .error, some .warn, some .info, some .debug, some .trace].find? fun threshold =>
    name.map upper = (label threshold).toList

end Threshold

/-- The part of the engine that makes a note. -/
inductive Origin where
  | program
  | session
  | manifest
  | loader
  | rom
  | image
  | restart
  | transport
  deriving DecidableEq, Repr

def Origin.label : Origin → String
  | .program => "fwboot"
  | .session => "fwboot::session"
  | .manifest => "fwboot::manifest"
  | .loader => "fwboot::multiboot"
  | .rom => "fwboot::config_rom"
  | .image => "fwboot::elf"
  | .restart => "fwboot::reboot"
  | .transport => "fwboot::transport"

structure Note where
  level : Level
  origin : Origin
  text : String
  deriving DecidableEq, Repr

/-- A note as it is shown to the operator. -/
def Note.line (note : Note) : String :=
  "[" ++ String.ofList (Numeral.padRight 5 note.level.label.toList) ++ " " ++ note.origin.label
    ++ "] " ++ note.text

/-- A result together with the notes made on the way to it. -/
structure Noted (α : Type) where
  notes : List Note
  result : Except Stop α

namespace Noted

variable {α β : Type}

protected def pure (value : α) : Noted α :=
  ⟨[], .ok value⟩

/-- The second computation runs only if the first one succeeded. -/
protected def bind (first : Noted α) (next : α → Noted β) : Noted β :=
  match first.result with
  | .ok value => ⟨first.notes ++ (next value).notes, (next value).result⟩
  | .error stop => ⟨first.notes, .error stop⟩

instance : Monad Noted where
  pure := Noted.pure
  bind := Noted.bind

def note (level : Level) (origin : Origin) (text : String) : Noted Unit :=
  ⟨[⟨level, origin, text⟩], .ok ()⟩

def fail (fault : Fault) : Noted α :=
  ⟨[], .error (.fault fault)⟩

def ofExcept (result : Except Stop α) : Noted α :=
  ⟨[], result⟩

@[simp]
theorem result_pure (value : α) : (pure value : Noted α).result = .ok value := rfl

@[simp]
theorem result_note (level : Level) (origin : Origin) (text : String) :
    (note level origin text).result = .ok () := rfl

@[simp]
theorem result_fail (fault : Fault) : (fail fault : Noted α).result = .error (.fault fault) := rfl

/-- Results compose without looking at notes. -/
@[simp]
theorem result_bind (first : Noted α) (next : α → Noted β) :
    (first >>= next).result = first.result.bind fun value => (next value).result := by
  change (Noted.bind first next).result = _
  unfold Noted.bind
  cases first.result <;> rfl

end Noted
end RemoteBoot
