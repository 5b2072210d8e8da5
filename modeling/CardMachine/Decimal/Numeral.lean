/-!
# Decimal numerals

Integers in decimal, without leading zeros, a minus sign in front of a negative one.
-/

namespace CardMachine.Decimal

/-- The decimal digits of `n`. -/
def nat (n : Nat) : List Char :=
  Nat.toDigits 10 n

/-- The decimal numeral of `v`. -/
def int (v : Int) : List Char :=
  if v < 0 then '-' :: nat v.natAbs else nat v.natAbs

/-- The decimal numeral of `v`, as a string. -/
def text (v : Int) : String :=
  String.ofList (int v)

/-- The power of ten with exponent `k`. -/
def power (k : Nat) : Nat :=
  Nat.pow 10 k

/-- The number that a run of decimal digits denotes. -/
def value (digits : List Char) : Nat :=
  Nat.ofDigitChars 10 digits 0

end CardMachine.Decimal
