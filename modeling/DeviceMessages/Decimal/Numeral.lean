/-!
# Decimal numerals

A numeral is a run of one or more ASCII digits, with as many leading zeros as the writer likes. A
sign may stand before it where the reader says so; nothing may follow it. Numerals have no upper
bound here: the bounds of the machine integers are separate tests, so that "too large" and "not a
numeral" are never confused.
-/

namespace DeviceMessages.Decimal

/-- One or more ASCII digits. -/
def isNumeral (cs : List Char) : Bool :=
  !cs.isEmpty && cs.all Char.isDigit

/-- The number that a run of digits denotes. -/
def valueOf (digits : List Char) : Nat :=
  Nat.ofDigitChars 10 digits 0

/-- The number that a numeral without a sign denotes. -/
def numeral? (cs : List Char) : Option Nat :=
  if isNumeral cs then some (valueOf cs) else none

/-- A numeral, with an optional plus sign. -/
def natural? : List Char → Option Nat
  | '+' :: cs => numeral? cs
  | cs => numeral? cs

/-- A numeral, with an optional plus or minus sign. -/
def integer? : List Char → Option Int
  | '-' :: cs => (numeral? cs).map fun n => -(n : Int)
  | cs => (natural? cs).map fun n => (n : Int)

/-- One more than the largest unsigned number of 64 bits. -/
def wordSize : Nat := 0x10000000000000000

/-- A natural number that fits 64 bits. -/
def unsigned64? (cs : List Char) : Option Nat :=
  (natural? cs).filter (· < wordSize)

/-- An integer that fits 64 bits with a sign. -/
def signed64? (cs : List Char) : Option Int :=
  (integer? cs).filter fun n => -0x8000000000000000 ≤ n && n < 0x8000000000000000

/-- The decimal digits of a number, without leading zeros. -/
def digits (n : Nat) : List Char :=
  Nat.toDigits 10 n

/-- The decimal digits of a number, with leading zeros up to a least number of digits. -/
def paddedDigits (width n : Nat) : List Char :=
  List.replicate (width - (digits n).length) '0' ++ digits n

theorem valueOf_digits (n : Nat) : valueOf (digits n) = n :=
  Nat.ofDigitChars_toDigits (by decide) (by decide)

theorem isDigit_of_mem_digits {n : Nat} {c : Char} (h : c ∈ digits n) : c.isDigit = true :=
  Nat.isDigit_of_mem_toDigits (by decide) (by decide) h

example : integer? "-007".toList = some (-7) ∧ integer? "+-7".toList = none := by decide
example : unsigned64? "18446744073709551615".toList = some (wordSize - 1) := by decide
example : unsigned64? "18446744073709551616".toList = none := by decide

end DeviceMessages.Decimal
