import CardMachine.Decimal.Shortest

/-!
# Decimals as text

Three ways to write a decimal: with the point where it belongs, with an exponent, and rounded to a
fixed number of places.
-/

namespace CardMachine.Decimal

/-- A quotient rounded to the nearest integer, a half to the even one. -/
def roundHalfEven (num den : Nat) : Nat :=
  let below := num / den
  let twice := 2 * (num % den)
  if twice < den then below
  else if den < twice then below + 1
  else if below % 2 = 0 then below else below + 1

/-- A minus sign, or nothing. -/
def sign (negative : Bool) : String :=
  if negative then "-" else ""

/-- `count` zeros. -/
def zeros (count : Nat) : List Char :=
  List.replicate count '0'

namespace Scaled

/-- The digits of the coefficient. -/
def digits (s : Scaled) : List Char := nat s.coefficient

/-- The exponent of the first digit. -/
def leading (s : Scaled) : Int :=
  s.exponent + (s.digits.length - 1 : Nat)

/-- With a point, and at least one digit on either side of it. -/
def positional (s : Scaled) : String :=
  let ds := s.digits
  let whole :=
    if 0 ≤ s.exponent then ds ++ zeros s.exponent.toNat
    else ds.take (ds.length - (-s.exponent).toNat)
  let part :=
    if 0 ≤ s.exponent then []
    else zeros ((-s.exponent).toNat - ds.length) ++ ds.drop (ds.length - (-s.exponent).toNat)
  let orZero (cs : List Char) := if cs.isEmpty then ['0'] else cs
  String.ofList (orZero whole ++ '.' :: orZero part)

/-- With one digit before the point and an exponent; `plus` is written before a positive one. -/
def exponential (s : Scaled) (plus : String) : String :=
  let mantissa := match s.digits with
    | [] => []
    | [d] => [d]
    | d :: ds => d :: '.' :: ds
  let e := s.leading
  String.ofList mantissa ++ "e" ++ (if e < 0 then "" else plus) ++ text e

end Scaled

/-- A number rounded to `places` decimals, a half to the even neighbour. A negative number keeps its
sign when it rounds to zero. -/
def fixed (places : Nat) (n : Binary64.Finite) : String :=
  let (num, den) := n.ratio
  let ds := nat (roundHalfEven (num * power places) den)
  let ds := zeros (places + 1 - ds.length) ++ ds
  let whole := String.ofList (ds.take (ds.length - places))
  let part := String.ofList (ds.drop (ds.length - places))
  sign n.negative ++ whole ++ (if places = 0 then "" else ".") ++ part

/-- A double rounded to `places` decimals. -/
def fixedText (places : Nat) (x : Float) : String :=
  match Binary64.classify x with
  | .nan => "NaN"
  | .infinite negative => sign negative ++ "inf"
  | .finite n => fixed places n

end CardMachine.Decimal
