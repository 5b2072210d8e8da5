/-!
# Characters of a text

What the readers of more than one format need: texts cut at a separator, and hexadecimal digits.
-/

namespace CardMachine.Text

/-- Cuts a text at a separator: the part before the first one, and the parts after each. -/
def cutAt (sep : Char) (cs : List Char) : List Char × List (List Char) :=
  cs.foldr (fun c (first, rest) => if c = sep then ([], first :: rest) else (c :: first, rest))
    ([], [])

/-- The value of a hexadecimal digit. -/
def hexValue? (c : Char) : Option Nat :=
  if '0' ≤ c ∧ c ≤ '9' then some (c.toNat - '0'.toNat)
  else if 'a' ≤ c ∧ c ≤ 'f' then some (c.toNat - 'a'.toNat + 10)
  else if 'A' ≤ c ∧ c ≤ 'F' then some (c.toNat - 'A'.toNat + 10)
  else none

end CardMachine.Text
