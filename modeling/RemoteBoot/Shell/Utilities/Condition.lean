import RemoteBoot.Shell.Arithmetic
import RemoteBoot.Shell.Machine

/-!
# Conditions

Tests of text, numbers and files, and their combinations.
-/

set_option autoImplicit false

namespace RemoteBoot.Shell.Utilities

open Effect

/-- The truth of a test of one operand. -/
def testOne (machine : Machine) (operator : String) (operand : Text) : Option Bool :=
  let entry : Option FileTree.Entry :=
    match machine.tree.locate ⟨operand⟩ with
    | .ok spot => machine.tree.entryAt spot
    | .error _ => none
  match operator with
  | "-n" => some (!operand.isEmpty)
  | "-z" => some operand.isEmpty
  | "-e" => some entry.isSome
  | "-f" | "-r" | "-w" =>
    some (match entry with
      | some (.file _) => true
      | _ => false)
  | "-d" => some (entry == some .directory)
  | "-s" =>
    some (match entry with
      | some (.file contents) => !contents.isEmpty
      | _ => false)
  | _ => none

/-- The truth of a test of two operands. -/
def testTwo (operator : String) (left right : Text) : Option Bool :=
  let numbers (relation : Int → Int → Bool) : Option Bool := do
    let left ← Arithmetic.number? left
    let right ← Arithmetic.number? right
    some (relation left right)
  match operator with
  | "=" | "==" => some (left == right)
  | "!=" => some (left != right)
  | "-eq" => numbers (· == ·)
  | "-ne" => numbers (· != ·)
  | "-lt" => numbers (· < ·)
  | "-le" => numbers (· ≤ ·)
  | "-gt" => numbers (· > ·)
  | "-ge" => numbers (· ≥ ·)
  | _ => none

/-- The truth of a test, `none` if it is malformed; the first argument bounds the number of
steps. -/
def test? (machine : Machine) : Nat → List Text → Option Bool
  | 0, _ => none
  | fuel + 1, arguments =>
    match arguments with
    | [] => some false
    | [only] => some (!only.isEmpty)
    | [first, operand] =>
      if first = ['!'] then some operand.isEmpty
      else testOne machine (String.ofList first) operand
    | [left, operator, right] =>
      match testTwo (String.ofList operator) left right with
      | some truth => some truth
      | none =>
        if operator = "-a".toList then some (!left.isEmpty && !right.isEmpty)
        else if operator = "-o".toList then some (!left.isEmpty || !right.isEmpty)
        else if left = ['!'] then (test? machine fuel [operator, right]).map not
        else none
    | ['!'] :: rest => (test? machine fuel rest).map not
    | arguments =>
      match arguments.findIdx? (· = "-o".toList) with
      | some index => do
        let left ← test? machine fuel (arguments.take index)
        let right ← test? machine fuel (arguments.drop (index + 1))
        some (left || right)
      | none =>
        match arguments.findIdx? (· = "-a".toList) with
        | some index => do
          let left ← test? machine fuel (arguments.take index)
          let right ← test? machine fuel (arguments.drop (index + 1))
          some (left && right)
        | none => none

def test (arguments : List Text) : Effect Nat := do
  match test? (← get) (arguments.length + 1) arguments with
  | some true => pure 0
  | some false => pure 1
  | none =>
    complain "test: bad operand\n".toList
    pure 2

end RemoteBoot.Shell.Utilities
