import CardMachine.Text.Blank

/-!
# Tokens

The tokens of a line are the longest runs of characters that do not separate, in the part before the
first semicolon. White space separates, and so does a comma.
-/

namespace CardMachine

/-- A token and its column, in bytes from 1. -/
structure Token where
  column : Nat
  text : String
  deriving DecidableEq

namespace Token

/-- The column right after a token. -/
def endColumn (t : Token) : Nat :=
  t.column + Text.byteLength t.text.toList

/-- Does a character separate tokens? -/
def isSeparator (c : Char) : Bool :=
  Text.isBlank c || c = ','

/-- Does a character belong to a token? -/
def isPart (c : Char) : Bool := !isSeparator c

/-- The tokens of a text that starts at `column`. -/
def scan (column : Nat) (cs : List Char) : List Token :=
  match cs with
  | [] => []
  | c :: rest =>
    if isSeparator c then
      scan (column + c.utf8Size) rest
    else
      let word := c :: rest.takeWhile isPart
      ⟨column, String.ofList word⟩ :: scan (column + Text.byteLength word) (rest.dropWhile isPart)
termination_by cs.length
decreasing_by
  · simp
  · exact Nat.lt_succ_of_le (List.dropWhile_suffix isPart).length_le

/-- The part of a line that is not a comment. -/
def uncommented (line : String) : List Char :=
  line.toList.takeWhile (· ≠ ';')

/-- The tokens of a line. -/
def ofLine (line : String) : List Token :=
  scan 1 (uncommented line)

end Token

end CardMachine
