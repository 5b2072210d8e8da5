import CardMachine.Machine

/-!
# Listings

A program as readable text: a heading for each card and a row for each of its instructions, with a
mark at the one the pointers name.
-/

namespace CardMachine

/-- A row of a listing. -/
structure Row where
  card : Nat
  index : Nat
  flag : Option Flag
  opcode : Opcode
  operand : String
  /-- Do the pointers name this instruction? -/
  isCurrent : Bool
  deriving DecidableEq

namespace Row

/-- The instruction of a row as it is written. -/
def text (r : Row) : String :=
  match r.flag with
  | none => r.opcode.mnemonic ++ " " ++ r.operand
  | some f => f.name ++ " " ++ r.opcode.mnemonic ++ " " ++ r.operand

/-- A number with a blank in front if it has one digit. -/
def padded (n : Nat) : List Char :=
  let ds := Decimal.nat n
  List.replicate (2 - ds.length) ' ' ++ ds

/-- A row as a line of the listing. -/
def line (r : Row) : String :=
  (if r.isCurrent then "> " else "  ") ++ String.ofList (padded r.index) ++ "  " ++ r.text ++ "\n"

end Row

namespace Machine

/-- The rows of one card. -/
def cardRows (m : Machine) (card : Nat) : List Row :=
  (m.program.card card).zipIdx.map fun (i, index) =>
    ⟨card, index, i.flag, i.opcode, i.argument.text, card = m.card && index = m.ip⟩

/-- The rows of all cards. -/
def rows (m : Machine) : List Row :=
  (List.range m.program.cardCount).flatMap m.cardRows

/-- A card with its heading. -/
def cardListing (m : Machine) (card : Nat) : String :=
  ".card " ++ String.ofList (Decimal.nat card) ++ "\n" ++ String.join ((m.cardRows card).map Row.line)

/-- The listing of the program. -/
def listing (m : Machine) : String :=
  String.join ((List.range m.program.cardCount).map m.cardListing)

end Machine

end CardMachine
