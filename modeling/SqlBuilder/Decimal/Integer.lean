/-!
# Integers in decimal

How whole numbers are written and read: the digits without leading zeros, a minus sign for the
negative ones, digits filled up to a width, and the reading of a whole text as a 64-bit integer.
-/

namespace SqlBuilder.Decimal

/-- The decimal digits of a number, without leading zeros. -/
def digits (n : Nat) : List Char := Nat.toDigits 10 n

/-- The number that a run of decimal digits stands for; leading zeros do not matter. -/
def ofDigits (ds : List Char) : Nat := Nat.ofDigitChars 10 ds 0

/-- The digits of a number, filled with zeros to at least the width. -/
def padded (width n : Nat) : List Char :=
  List.replicate (width - (digits n).length) '0' ++ digits n

/-- An integer with a minus sign if it is negative. -/
def signed (n : Int) : List Char :=
  if n < 0 then '-' :: digits n.natAbs else digits n.natAbs

/-- An integer with its sign, also a plus sign, filled with zeros to at least the width after the
sign. -/
def signedPadded (width : Nat) (n : Int) : List Char :=
  (if n < 0 then '-' else '+') :: padded width n.natAbs

/-- A text that is digits only, at least one. -/
def unsigned? (s : List Char) : Option Nat :=
  if s ≠ [] ∧ s.all Char.isDigit then some (ofDigits s) else none

/-- Reads a whole text as an integer: at most one sign, then at least one digit and nothing else. -/
def integer? : List Char → Option Int
  | '-' :: ds => (unsigned? ds).map fun n => -(n : Int)
  | '+' :: ds => (unsigned? ds).map fun n => (n : Int)
  | ds => (unsigned? ds).map fun n => (n : Int)

/-- An integer as a 64-bit one; one out of range is none. -/
def narrow? (n : Int) : Option Int64 :=
  if Int64.minValue.toInt ≤ n ∧ n ≤ Int64.maxValue.toInt then some (Int64.ofInt n) else none

/-- Reads a whole text as a 64-bit integer. -/
def int64? (s : List Char) : Option Int64 := (integer? s).bind narrow?

@[simp] theorem narrow?_toInt (n : Int64) : narrow? n.toInt = some n := by
  rw [narrow?, if_pos ⟨Int64.minValue_le_toInt n, Int64.toInt_le n⟩, Int64.ofInt_toInt]

@[simp] theorem ofDigits_digits (n : Nat) : ofDigits (digits n) = n :=
  Nat.ofDigitChars_toDigits (by decide) (by decide)

theorem isDigit_of_mem_digits {n : Nat} {c : Char} (h : c ∈ digits n) : c.isDigit = true :=
  Nat.isDigit_of_mem_toDigits (by decide) (by decide) h

theorem digits_ne_nil (n : Nat) : digits n ≠ [] :=
  List.ne_nil_of_length_pos Nat.length_toDigits_pos

end SqlBuilder.Decimal
