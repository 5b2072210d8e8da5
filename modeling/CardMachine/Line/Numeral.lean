import CardMachine.Decimal.Numeral
import CardMachine.Text.Basic

/-!
# Written values

A value is written with an optional sign, in decimal, or in hexadecimal after `0x`. The hexadecimal
digits may have a sign of their own. Values beyond 64 bits are not read.
-/

namespace CardMachine.Line

open Text (hexValue?)

/-- Is `v` within 64 bits? -/
def fits64 (v : Int) : Bool :=
  -9223372036854775808 ≤ v && v ≤ 9223372036854775807

/-- The number that hexadecimal digits denote, if all are digits. -/
def hexDigits? (cs : List Char) : Option Nat :=
  cs.foldl (fun acc c => acc.bind fun v => (hexValue? c).map (16 * v + ·)) (some 0)

/-- The number that one or more hexadecimal digits denote. -/
def hexNat? (cs : List Char) : Option Nat :=
  if cs.isEmpty then none else hexDigits? cs

/-- The number that hexadecimal digits denote, with an optional sign of their own. -/
def hexInt? : List Char → Option Int
  | '-' :: cs => (hexNat? cs).map fun n => -(n : Int)
  | '+' :: cs => (hexNat? cs).map fun n => (n : Int)
  | cs => (hexNat? cs).map fun n => (n : Int)

/-- The number that one or more decimal digits denote. -/
def decimalInt? (cs : List Char) : Option Int :=
  if cs.isEmpty || !cs.all Char.isDigit then none else some (Decimal.value cs)

/-- The number written after the sign. -/
def magnitude? (cs : List Char) : Option Int :=
  let read := match cs with
    | '0' :: 'x' :: hex => hexInt? hex
    | '0' :: 'X' :: hex => hexInt? hex
    | cs => decimalInt? cs
  read.filter fits64

/-- The value written `cs`. -/
def value? : List Char → Option Int
  | '-' :: cs => (magnitude? cs).map (- ·)
  | '+' :: cs => magnitude? cs
  | cs => magnitude? cs

end CardMachine.Line
