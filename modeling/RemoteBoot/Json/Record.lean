import RemoteBoot.Json.Value

/-!
# Records in JSON

A record is read from an object, in which each known field stands at most once and unknown members
count for nothing, or from an array of its fields in order.  A field that is not given keeps its
value.
-/

set_option autoImplicit false

namespace RemoteBoot.Json

/-- A field of a record by its name, and how a value of it is taken over. -/
structure Field (α : Type) where
  name : Text
  set? : Json → α → Option α

/-- Takes over members behind fields that were given already. -/
def setMembers? {α : Type} (fields : List (Field α)) :
    List Text → List (Option Text × Json) → α → Option α
  | _, [], record => some record
  | _, (none, _) :: _, _ => none
  | given, (some name, value) :: members, record =>
    match fields.find? fun field => field.name = name with
    | none => setMembers? fields given members record
    | some field =>
      if name ∈ given then none
      else do
        let record ← field.set? value record
        setMembers? fields (name :: given) members record

/-- Takes over values in the order of the fields. -/
def setItems? {α : Type} : List (Field α) → List Json → α → Option α
  | _, [], record => some record
  | [], _ :: _, _ => none
  | field :: fields, item :: items, record => do
    let record ← field.set? item record
    setItems? fields items record

/-- The record that a value describes, starting from one. -/
def record? {α : Type} (fields : List (Field α)) (start : α) : Json → Option α
  | .object members => setMembers? fields [] members start
  | .array items => setItems? fields items start
  | _ => none

def text? : Json → Option Text
  | .string text => text
  | _ => none

/-- A whole number below a bound. -/
def below? (bound : Nat) : Json → Option Nat
  | .number (some whole) => if whole < bound then some whole else none
  | _ => none

end RemoteBoot.Json
