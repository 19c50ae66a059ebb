import SchemaLedger.Decimal.Layout

/-! Decimal digits are read back as the number that they were written for. -/

namespace SchemaLedger

/-- The value of digits is that of their base, which is ten. -/
theorem digitsValue_eq (digits : List Char) :
    digitsValue digits = Nat.ofDigitChars 10 digits 0 := by
  -- Both are left folds, and differ in the order of a product.
  rw [digitsValue, Nat.ofDigitChars_eq_foldl]
  congr 1
  funext value c
  rw [Nat.mul_comm]

/-- A number is the value of its own digits. -/
@[simp] theorem digitsValue_decimalDigits (n : Nat) : digitsValue (decimalDigits n) = n := by
  -- Digits are read back as the number they were written for.
  rw [digitsValue_eq, decimalDigits, Nat.ofDigitChars_ten_toDigits]

/-- Different numbers have different digits. -/
theorem decimalDigits_injective : Function.Injective decimalDigits :=
  -- Reading the digits gives the number back.
  fun first second same => by
  rw [← digitsValue_decimalDigits first, same, digitsValue_decimalDigits]

/-- Digits end where no further digit follows. -/
theorem digits_stop {rest : List Char} (ends : ∀ c, rest.head? = some c → c.isDigit = false) :
    rest.takeWhile Char.isDigit = [] ∧ rest.dropWhile Char.isDigit = rest := by
  -- The first character ends the digits before there are any.
  cases rest with
  | nil => exact ⟨rfl, rfl⟩
  | cons c rest =>
    have last := ends c rfl
    exact ⟨List.takeWhile_cons_of_neg (by simp [last]), List.dropWhile_cons_of_neg (by simp [last])⟩

/-- A number is written with digits only. -/
theorem isDigit_of_mem_decimalDigits {n : Nat} {c : Char} (member : c ∈ decimalDigits n) :
    c.isDigit = true :=
  Nat.isDigit_of_mem_toDigits (by decide) (by decide) member

/-- A number has at least one digit. -/
theorem decimalDigits_ne_nil (n : Nat) : decimalDigits n ≠ [] := Nat.toDigits_ne_nil

/-- A number starts with a digit. -/
theorem decimalDigits_eq_cons (n : Nat) :
    ∃ c rest, decimalDigits n = c :: rest ∧ c.isDigit = true := by
  -- Even zero has a digit.
  obtain ⟨c, rest, digits⟩ := List.exists_cons_of_ne_nil (decimalDigits_ne_nil n)
  exact ⟨c, rest, digits, isDigit_of_mem_decimalDigits (digits ▸ List.mem_cons_self (l := rest))⟩

/-- The first digit of a positive number is not zero. -/
theorem head?_decimalDigits {n : Nat} (positive : 0 < n) : (decimalDigits n).head? ≠ some '0' := by
  induction n using Nat.strongRecOn with
  | ind n ih =>
    rw [decimalDigits]
    by_cases small : n < 10
    · -- A number below ten is its own digit, which is zero for none but zero.
      have nonzero : ∀ digit < 10, 0 < digit → Nat.digitChar digit ≠ '0' := by decide
      rw [Nat.toDigits_of_lt_base small]
      simpa using nonzero n small positive
    · -- The first digit is that of the number without its last one.
      have rest := ih (n / 10) (by omega) (by omega)
      obtain ⟨c, others, digits⟩ := List.exists_cons_of_ne_nil (decimalDigits_ne_nil (n / 10))
      rw [digits] at rest
      rw [decimalDigits] at digits
      rw [Nat.toDigits_of_base_le (by decide) (by omega), digits]
      exact rest

end SchemaLedger
