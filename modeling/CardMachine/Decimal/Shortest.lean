import CardMachine.Binary64
import CardMachine.Decimal.Numeral

/-!
# Shortest decimals

The shortest decimal of a double is the one with the fewest digits among those that read back as
that double, and of those with as few digits the nearest. All reals nearer to a double than to its
neighbours read back as it, and so do the ends of that interval if its mantissa is even.

The search goes from coarse to fine. On the grid of the multiples of a power of ten only the two
neighbours of the double can be the nearest, so it is enough to look at those.
-/

namespace CardMachine.Decimal

/-- The number `coefficient` · 10 ^ `exponent`. -/
structure Scaled where
  coefficient : Nat
  exponent : Int
  deriving DecidableEq

/-- Which way to go from the middle between two decimals. -/
inductive Tie
  | toEven | up
  deriving DecidableEq

/-- A positive number and the ends of the interval that reads back as it, as numerators over one
denominator. -/
structure Target where
  lower : Nat
  value : Nat
  upper : Nat
  denominator : Nat
  /-- Do the ends belong to the interval? -/
  closed : Bool

/-- The interval of a positive double. Below a power of two the neighbour is half as far. -/
def Target.ofFinite (n : Binary64.Finite) : Target :=
  let low := if n.mantissa = Binary64.hiddenBit ∧ -1074 < n.exponent then 1 else 2
  let up := (n.exponent - 2).toNat
  ⟨(4 * n.mantissa - low) <<< up, (4 * n.mantissa) <<< up, (4 * n.mantissa + 2) <<< up,
    1 <<< (2 - n.exponent).toNat,
    n.mantissa % 2 = 0⟩

/-- The exponent of the first digit of `num / den`. -/
def leadingExponent (num den : Nat) : Int :=
  if den ≤ num then (nat (num / den)).length - 1 else -((nat ((den - 1) / num)).length : Int)

namespace Target

/-- Is the multiple `k` of the denominator in the interval? -/
def contains (t : Target) (k : Nat) : Bool :=
  let v := k * t.denominator
  if t.closed then t.lower ≤ v && v ≤ t.upper else t.lower < v && v < t.upper

/-- The target in units of 10 ^ `exponent`. -/
def inUnits (t : Target) (exponent : Int) : Target :=
  let up := power (-exponent).toNat
  let down := power exponent.toNat
  ⟨t.lower * up, t.value * up, t.upper * up, t.denominator * down, t.closed⟩

/-- The neighbour to take of the two that both are in the interval. -/
def nearer (t : Target) (tie : Tie) (below : Nat) : Nat :=
  let left := t.value - below * t.denominator
  let right := (below + 1) * t.denominator - t.value
  if left < right then below
  else if right < left then below + 1
  else match tie with
    | .up => below + 1
    | .toEven => if below % 2 = 0 then below else below + 1

/-- The integer in the interval that is nearest to the value. -/
def integer? (t : Target) (tie : Tie) : Option Nat :=
  let below := t.value / t.denominator
  match t.contains below, t.contains (below + 1) with
  | true, true => some (t.nearer tie below)
  | true, false => some below
  | false, true => some (below + 1)
  | false, false => none

end Target

/-- Moves the zeros at the end of the coefficient into the exponent, at most `fuel` of them. -/
def Scaled.trim (s : Scaled) : Nat → Scaled
  | 0 => s
  | fuel + 1 =>
    if s.coefficient ≠ 0 ∧ s.coefficient % 10 = 0 then
      Scaled.trim ⟨s.coefficient / 10, s.exponent + 1⟩ fuel
    else s

/-- The shortest decimal of the absolute value of a double; seventeen digits always suffice. -/
def shortest (tie : Tie) (n : Binary64.Finite) : Scaled :=
  if n.mantissa = 0 then ⟨0, 0⟩
  else
    let t := Target.ofFinite n
    let first := leadingExponent t.value t.denominator
    let found := (List.range 17).findSome? fun (more : Nat) =>
      let exponent := first - more
      ((t.inUnits exponent).integer? tie).map fun k => (⟨k, exponent⟩ : Scaled)
    (found.getD ⟨0, 0⟩).trim 20

end CardMachine.Decimal
