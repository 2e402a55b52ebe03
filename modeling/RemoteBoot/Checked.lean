import RemoteBoot.Fault
import RemoteBoot.Word

/-!
# Numbers of 64 bits

Addresses and lengths have 64 bits.  A sum that these cannot hold is a crash, and so are more bytes
than a vector can hold.
-/

set_option autoImplicit false

namespace RemoteBoot.Checked

/-- The sum of two numbers of 64 bits. -/
def sum (left right : Nat) : Except Stop Nat :=
  if left + right < 0x10000000000000000 then .ok (left + right) else .error (.crash .sumOverflow)

/-- A vector of so many zero bytes. -/
def zeros (length : Nat) : Except Stop Bytes :=
  if length < 0x8000000000000000 then .ok (List.replicate length 0)
  else .error (.crash .capacityOverflow)

theorem sum_of_lt {left right : Nat} (fits : left + right < 0x10000000000000000) :
    sum left right = .ok (left + right) :=
  if_pos fits

theorem sum_of_le {left right : Nat} (large : 0x10000000000000000 ≤ left + right) :
    sum left right = .error (.crash .sumOverflow) :=
  if_neg (Nat.not_lt.mpr large)

theorem sum_ok {left right total : Nat} (formed : sum left right = .ok total) :
    total = left + right ∧ left + right < 0x10000000000000000 := by
  by_cases fits : left + right < 0x10000000000000000
  · rw [sum_of_lt fits] at formed
    cases formed
    exact ⟨rfl, fits⟩
  · rw [sum_of_le (Nat.not_lt.mp fits)] at formed
    cases formed

theorem sum_error {left right : Nat} {stop : Stop} (failed : sum left right = .error stop) :
    stop = .crash .sumOverflow ∧ 0x10000000000000000 ≤ left + right := by
  by_cases fits : left + right < 0x10000000000000000
  · rw [sum_of_lt fits] at failed
    cases failed
  · rw [sum_of_le (Nat.not_lt.mp fits)] at failed
    cases failed
    exact ⟨rfl, Nat.not_lt.mp fits⟩

theorem zeros_of_lt {length : Nat} (fits : length < 0x8000000000000000) :
    zeros length = .ok (List.replicate length 0) :=
  if_pos fits

theorem zeros_error {length : Nat} {stop : Stop} (failed : zeros length = .error stop) :
    stop = .crash .capacityOverflow ∧ 0x8000000000000000 ≤ length := by
  by_cases fits : length < 0x8000000000000000
  · rw [zeros_of_lt fits] at failed
    cases failed
  · rw [zeros, if_neg fits] at failed
    cases failed
    exact ⟨rfl, Nat.not_lt.mp fits⟩

theorem zeros_of_le {length : Nat} (large : 0x8000000000000000 ≤ length) :
    zeros length = .error (.crash .capacityOverflow) :=
  if_neg (Nat.not_lt.mpr large)

end RemoteBoot.Checked
