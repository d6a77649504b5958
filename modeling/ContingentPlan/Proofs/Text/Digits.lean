import ContingentPlan.Text.Digits
import ContingentPlan.Text.Identifier
import Mathlib.Data.List.Basic

/-!
Whole numbers in decimal digits. The digits have no zero before them and give back the number.
-/

namespace ContingentPlan.Text

theorem head?_toDigits {number : Nat} (positive : 0 < number) :
    (Nat.toDigits 10 number).head? ≠ some '0' := by
  induction number using Nat.strongRecOn with
  | ind number ih =>
      rcases Nat.lt_or_ge number 10 with small | large
      · rw [Nat.toDigits_of_lt_base small]
        have digits : ∀ digit < 10, 0 < digit → [Nat.digitChar digit].head? ≠ some '0' := by decide
        exact digits number small positive
      · rw [Nat.toDigits_of_base_le (by omega) large, List.head?_append_of_ne_nil _ Nat.toDigits_ne_nil]
        exact ih (number / 10) (by omega) (by omega)

theorem isDigit_of_mem_toDigits {number : Nat} {digit : Char}
    (member : digit ∈ Nat.toDigits 10 number) : isDigit digit = true := by
  have known := Nat.isDigit_of_mem_toDigits (by omega) (by omega) member
  simpa [isDigit, Char.isDigit, Char.le_def] using known

theorem digitValue_of_isDigit {digit : Char} (isDigit : digit.isDigit = true) :
    digitValue digit = digit.toNat - '0'.toNat := by
  have bounds : '0' ≤ digit ∧ digit ≤ '9' := by simpa [Char.isDigit, Char.le_def] using isDigit
  simp [digitValue, hexDigit?, bounds]

theorem valueInBase_toDigits (number : Nat) :
    valueInBase 10 (Nat.toDigits 10 number) = number := by
  have values : ∀ (digits : List Char) (start : Nat), (∀ digit ∈ digits, digit.isDigit = true) →
      digits.foldl (fun value digit => 10 * value + digitValue digit) start =
        Nat.ofDigitChars 10 digits start := by
    intro digits
    induction digits with
    | nil => exact fun start _ => rfl
    | cons digit digits ih =>
        intro start all
        rw [List.forall_mem_cons] at all
        rw [List.foldl_cons, ih _ all.2, digitValue_of_isDigit all.1, Nat.ofDigitChars_cons]
  rw [valueInBase, values _ _ fun digit member =>
    Nat.isDigit_of_mem_toDigits (by omega) (by omega) member, Nat.ofDigitChars_ten_toDigits]

end ContingentPlan.Text
