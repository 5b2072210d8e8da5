import CardMachine.Decimal.Shortest
import CardMachine.Json.Basic

/-!
# Numbers in JSON

A number has a whole part and perhaps decimals and an exponent. One that has neither is an integer,
if it fits 64 bits, signed or not. Every other number is read as a float, in two steps. First its
digits are gathered into a coefficient of at most 64 bits (`Numeral.scaled`), and then the
coefficient is scaled by a power of ten (`floatOf`). Both steps round, so the float that is read may
be a neighbour of the nearest one. A float too large to be finite cannot be read; one too small is
zero.
-/

namespace CardMachine.Json

/-- Reads something off the front of a text. -/
abbrev Reader (α : Type) := List Char → Option (α × List Char)

/-- The parts of a number, after its sign. -/
structure Numeral where
  whole : List Char
  fraction : List Char := []
  exponent : Option Int := none

/-- The greatest coefficient: 64 bits, all set. -/
def coefficientLimit : Nat := 18446744073709551615

/-- Appends digits to a coefficient up to the first one with which it would be too large. Gives the
coefficient and the digits that are left. -/
def gather (coefficient : Nat) : List Char → Nat × List Char
  | [] => (coefficient, [])
  | d :: rest =>
    let next := 10 * coefficient + (d.toNat - '0'.toNat)
    if next ≤ coefficientLimit then gather next rest else (coefficient, d :: rest)

namespace Numeral

/-- The value of a number as an integer, if it is written as one and fits 64 bits. -/
def nat? (n : Numeral) : Option Nat :=
  match n.fraction, n.exponent, gather 0 n.whole with
  | [], none, (v, []) => some v
  | _, _, _ => none

/-- The coefficient and the power of ten of a number. The digits of the whole part that the
coefficient has no room for count for the power of ten, and decimals that it has no room for are
dropped. -/
def scaled (n : Numeral) : Decimal.Scaled :=
  let (whole, omitted) := gather 0 n.whole
  let (coefficient, dropped) := gather whole n.fraction
  ⟨coefficient, (omitted.length + dropped.length : Int) - n.fraction.length + n.exponent.getD 0⟩

end Numeral

/-- The greatest exponent of a power of ten that is a float. -/
def exponentLimit : Nat := 308

/-- The float nearest to 10 ^ `k`, for `k` up to the limit. -/
def tenTo (k : Nat) : Float :=
  Float.ofScientific 1 false k

/-- The product of a float and 10 ^ `k`, if it is finite. -/
def scaleUp (x : Float) (k : Nat) : Option Float :=
  if k ≤ exponentLimit then
    let y := x * tenTo k
    if y.isInf then none else some y
  else if x == 0.0 then some x
  else none

/-- Divides by the greatest power of ten, so many times or until nothing is left. -/
def shrink (x : Float) : Nat → Float
  | 0 => x
  | times + 1 => if x == 0.0 then x else shrink (x / tenTo exponentLimit) times

/-- The quotient of a float and 10 ^ `k`. As many of the greatest power of ten as there are in it are
divided out first, so that what remains is from 1 up to the limit. -/
def scaleDown (x : Float) (k : Nat) : Float :=
  let times := (k - 1) / exponentLimit
  shrink x times / tenTo (k - times * exponentLimit)

/-- The float that a coefficient and a power of ten are read as. -/
def floatOf (s : Decimal.Scaled) : Option Float :=
  let x := (UInt64.ofNat s.coefficient).toFloat
  if 0 ≤ s.exponent then scaleUp x s.exponent.toNat
  else some (scaleDown x (-s.exponent).toNat)

/-- A number as a float. -/
def Numeral.float? (negative : Bool) (n : Numeral) : Option Number :=
  (floatOf n.scaled).map fun x => .float (if negative then -x else x)

/-- The number written with the given parts. Minus zero is a float. -/
def numberOf (negative : Bool) (n : Numeral) : Option Number :=
  match n.nat? with
  | none => n.float? negative
  | some v =>
    if !negative then some (.int v)
    else if 0 < v ∧ v ≤ 9223372036854775808 then some (.int (-v))
    else n.float? negative

/-- Reads digits. -/
def readDigits (cs : List Char) : List Char × List Char :=
  (cs.takeWhile Char.isDigit, cs.dropWhile Char.isDigit)

/-- Reads the integer part of a number. -/
def readWhole : Reader (List Char)
  | '0' :: rest => some (['0'], rest)
  | cs =>
    match readDigits cs with
    | ([], _) => none
    | (digits, rest) => some (digits, rest)

/-- Reads the decimals of a number, if there are any. -/
def readFraction : Reader (List Char)
  | '.' :: rest =>
    match readDigits rest with
    | ([], _) => none
    | (digits, rest) => some (digits, rest)
  | cs => some ([], cs)

/-- Reads the digits of an exponent. -/
def readExponentDigits (negative : Bool) (cs : List Char) : Option (Option Int × List Char) :=
  match readDigits cs with
  | ([], _) => none
  | (digits, rest) =>
    let e : Int := Decimal.value digits
    some (some (if negative then -e else e), rest)

/-- Reads the exponent of a number, if there is one. -/
def readExponent : Reader (Option Int)
  | [] => some (none, [])
  | c :: rest =>
    if c = 'e' ∨ c = 'E' then
      match rest with
      | '-' :: rest => readExponentDigits true rest
      | '+' :: rest => readExponentDigits false rest
      | rest => readExponentDigits false rest
    else some (none, c :: rest)

/-- Reads what follows the sign of a number. -/
def readUnsigned (negative : Bool) : Reader Number := fun cs =>
  match readWhole cs with
  | none => none
  | some (whole, cs) =>
    match readFraction cs with
    | none => none
    | some (fraction, cs) =>
      match readExponent cs with
      | none => none
      | some (exponent, cs) => (numberOf negative ⟨whole, fraction, exponent⟩).map (·, cs)

/-- Reads a number. -/
def readNumber : Reader Number
  | '-' :: rest => readUnsigned true rest
  | cs => readUnsigned false cs

end CardMachine.Json
