import SecureKit.Text.Bytes

/-!
# Decimal Text

Natural numbers as decimal digits without leading zeros. `value_digits` says that the digits show
the number they were written for.
-/

namespace SecureKit.Decimal

/-- The digit for `value`, which is below ten. -/
def digit (value : Nat) : UInt8 := Bytes.ascii '0' + value.toUInt8

/-- Whether `c` is a decimal digit. -/
def isDigit (c : UInt8) : Bool := Bytes.ascii '0' ≤ c && c ≤ Bytes.ascii '9'

/-- The value of the decimal digit `c`. -/
def digitValue (c : UInt8) : Nat := c.toNat - (Bytes.ascii '0').toNat

/-- The decimal digits of `n`, most significant first; `0` is one digit. -/
def digits (n : Nat) : Bytes :=
  if n < 10 then [digit n] else digits (n / 10) ++ [digit (n % 10)]

/-- The number shown by `text`, read after the digits that made `start`. -/
def valueFrom (start : Nat) (text : Bytes) : Nat :=
  text.foldl (fun value c => 10 * value + digitValue c) start

/-- The number shown by a string of digits. -/
def value (text : Bytes) : Nat := valueFrom 0 text

/-- A digit shows its value. -/
@[simp]
theorem digitValue_digit {n : Nat} (h : n < 10) : digitValue (digit n) = n := by
  revert n
  decide

/-- A digit is a digit. -/
@[simp]
theorem isDigit_digit {n : Nat} (h : n < 10) : isDigit (digit n) = true := by
  revert n
  decide

/-- The digits of a number show it. -/
@[simp]
theorem value_digits (n : Nat) : value (digits n) = n := by
  fun_induction digits n with
  | case1 n h => simp [value, valueFrom, h]
  | case2 n h ih =>
    have hd : n % 10 < 10 := Nat.mod_lt _ (by decide)
    simp only [value, valueFrom] at ih
    simp only [value, valueFrom, List.foldl_append, ih, List.foldl_cons, List.foldl_nil,
      digitValue_digit hd]
    omega

/-- Nothing but digits is written. -/
theorem isDigit_of_mem_digits {n : Nat} {c : UInt8} (h : c ∈ digits n) : isDigit c = true := by
  fun_induction digits n with
  | case1 n hn => simp_all
  | case2 n hn ih =>
    rcases List.mem_append.1 h with h | h
    · exact ih h
    · rw [List.mem_singleton.1 h]
      exact isDigit_digit (Nat.mod_lt _ (by decide))

end SecureKit.Decimal
