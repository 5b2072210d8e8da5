import CardMachine.Decimal.Format
import CardMachine.Json.Basic

/-!
# Writing JSON

Arrays and objects have one item on each line, two blanks further in than what they stand in, and
empty ones stand on one line. In strings, quotation marks, backslashes and control characters are
escaped and nothing else is.

Floats are written with the fewest digits that read back: with a point if the first digit stands for
at least 10^-5 and less than 10^16, else with an exponent and its sign. What is not a number is
`null`.
-/

namespace CardMachine.Json

/-- A float as it is written. -/
def floatText (x : Float) : String :=
  match Binary64.classify x with
  | .finite n =>
    let s := Decimal.shortest .toEven n
    let body :=
      if -5 ≤ s.leading ∧ s.leading < 16 then s.positional else s.exponential "+"
    Decimal.sign n.negative ++ body
  | _ => "null"

/-- A number as it is written. -/
def Number.text : Number → String
  | .int v => Decimal.text v
  | .float x => floatText x

/-- A hexadecimal digit. -/
def hexDigit (n : Nat) : Char :=
  Nat.digitChar n

/-- A character as it is written in a string. -/
def escape (c : Char) : List Char :=
  if c = '"' then ['\\', '"']
  else if c = '\\' then ['\\', '\\']
  else if c = '\x08' then ['\\', 'b']
  else if c = '\x0c' then ['\\', 'f']
  else if c = '\n' then ['\\', 'n']
  else if c = '\r' then ['\\', 'r']
  else if c = '\t' then ['\\', 't']
  else if c.toNat < 0x20 then
    ['\\', 'u', '0', '0', hexDigit (c.toNat / 16), hexDigit (c.toNat % 16)]
  else [c]

/-- A string as it is written. -/
def quote (s : String) : List Char :=
  '"' :: s.toList.flatMap escape ++ ['"']

/-- The blanks in front of a line `depth` levels in. -/
def indent (depth : Nat) : List Char :=
  List.replicate (2 * depth) ' '

mutual

/-- A value as it is written `depth` levels in. -/
def render (depth : Nat) : Json → List Char
  | .null => "null".toList
  | .bool true => "true".toList
  | .bool false => "false".toList
  | .number n => n.text.toList
  | .string s => quote s
  | .array [] => ['[', ']']
  | .array (v :: rest) => '[' :: '\n' :: renderItems depth (v :: rest) ++ '\n' :: indent depth ++ [']']
  | .object [] => ['\x7b', '\x7d']
  | .object (f :: rest) =>
    '\x7b' :: '\n' :: renderFields depth (f :: rest) ++ '\n' :: indent depth ++ ['\x7d']

/-- The items of an array that stands `depth` levels in. -/
def renderItems (depth : Nat) : List Json → List Char
  | [] => []
  | [v] => indent (depth + 1) ++ render (depth + 1) v
  | v :: w :: rest =>
    indent (depth + 1) ++ render (depth + 1) v ++ ',' :: '\n' :: renderItems depth (w :: rest)

/-- The fields of an object that stands `depth` levels in. -/
def renderFields (depth : Nat) : List (String × Json) → List Char
  | [] => []
  | [(name, v)] => indent (depth + 1) ++ quote name ++ ':' :: ' ' :: render (depth + 1) v
  | (name, v) :: f :: rest =>
    indent (depth + 1) ++ quote name ++ ':' :: ' ' :: render (depth + 1) v ++
      ',' :: '\n' :: renderFields depth (f :: rest)

end

/-- A value as it is written. -/
def text (v : Json) : String :=
  String.ofList (v.render 0)

end CardMachine.Json
