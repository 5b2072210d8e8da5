import CardMachine.Dict

/-!
# JSON values

A number is an integer, if it was written as one and fits 64 bits, signed or not; else it is a
float. The fields of an object are kept in the order of their names.
-/

namespace CardMachine

/-- A JSON number. -/
inductive Json.Number
  | int (value : Int)
  | float (value : Float)

/-- A JSON value. -/
inductive Json
  | null
  | bool (value : Bool)
  | number (value : Json.Number)
  | string (value : String)
  | array (items : List Json)
  | object (fields : List (String × Json))

namespace Json

/-- The value as a signed 64-bit integer. -/
def int64? : Json → Option Int
  | .number (.int v) =>
    if -9223372036854775808 ≤ v ∧ v ≤ 9223372036854775807 then some v else none
  | _ => none

/-- The value as an unsigned 64-bit integer. -/
def uint64? : Json → Option Nat
  | .number (.int v) => if 0 ≤ v ∧ v ≤ 18446744073709551615 then some v.toNat else none
  | _ => none

/-- The value as a string. -/
def string? : Json → Option String
  | .string s => some s
  | _ => none

/-- The value as an array. -/
def array? : Json → Option (List Json)
  | .array items => some items
  | _ => none

/-- The value as an object. -/
def object? : Json → Option (List (String × Json))
  | .object fields => some fields
  | _ => none

/-- A field of an object; a value of another kind has none. -/
def field? (v : Json) (name : String) : Option Json :=
  v.object?.bind (·.lookup name)

end Json

end CardMachine
