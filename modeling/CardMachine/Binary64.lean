/-!
# Doubles as numbers

A double is not a number, an infinity, or a finite number ± mantissa · 2 ^ exponent. `classify`
reads that off its bits, and everything that prints or truncates a double starts from there, in
exact integer arithmetic.
-/

namespace CardMachine.Binary64

/-- The number `mantissa` · 2 ^ `exponent`, negated if `negative`. -/
structure Finite where
  negative : Bool
  mantissa : Nat
  exponent : Int

/-- What a double stands for. -/
inductive Value
  | nan
  | infinite (negative : Bool)
  | finite (number : Finite)

/-- The weight of the bit that is not stored: 2 to the 52. -/
def hiddenBit : Nat := 4503599627370496

/-- Is the sign bit set? -/
def isNegative (x : Float) : Bool :=
  x.toBits.toNat >>> 63 = 1

/-- Reads a double: 1 bit of sign, 11 bits of exponent, 52 bits of fraction. -/
def classify (x : Float) : Value :=
  let bits : Nat := x.toBits.toNat
  let scale : Nat := (bits >>> 52) % 2048
  let fraction : Nat := bits % hiddenBit
  if scale = 2047 then
    if fraction = 0 then .infinite (isNegative x) else .nan
  else if scale = 0 then
    .finite ⟨isNegative x, fraction, -1074⟩
  else
    .finite ⟨isNegative x, hiddenBit + fraction, (scale : Int) - 1075⟩

/-- Is the double a number? -/
def isFinite (x : Float) : Bool :=
  match classify x with
  | .finite _ => true
  | _ => false

namespace Finite

/-- The absolute value as a fraction. -/
def ratio (n : Finite) : Nat × Nat :=
  if 0 ≤ n.exponent then (n.mantissa <<< n.exponent.toNat, 1)
  else (n.mantissa, 1 <<< (-n.exponent).toNat)

/-- The integer part, toward zero. -/
def truncate (n : Finite) : Int :=
  let (num, den) := n.ratio
  if n.negative then -((num / den : Nat) : Int) else (num / den : Nat)

end Finite

/-- The 64-bit integer nearest to the integer part of `x`; zero if `x` is not a number. -/
def toInt64 (x : Float) : Int64 :=
  match classify x with
  | .nan => 0
  | .infinite true => Int64.minValue
  | .infinite false => Int64.maxValue
  | .finite n => Int64.ofInt (max (-9223372036854775808) (min n.truncate 9223372036854775807))

end CardMachine.Binary64
