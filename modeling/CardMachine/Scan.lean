import CardMachine.Program

/-!
# The conditional scan

Which instruction runs next? The scan goes once round the card, starting at the instruction pointer
(modulo the length of the card), and stops at the first instruction that register `C` allows.
-/

namespace CardMachine

/-- The result of a scan. -/
inductive Selection
  /-- The card has no instructions. -/
  | emptyCard
  /-- The card has instructions, but none may run. -/
  | noneEligible
  /-- The first instruction that may run, and where it stands. -/
  | selected (index : Nat) (instruction : Instruction)
  deriving DecidableEq

/-- Once round a card from `start`: its instructions with their positions, in the order in which the
scan meets them. -/
def Card.lap (card : Card) (start : Nat) : List (Instruction × Nat) :=
  card.zipIdx.drop (start % card.length) ++ card.zipIdx.take (start % card.length)

/-- Scans a card from `start` for the first instruction that may run while `C` holds `c`. -/
def Card.select (card : Card) (start : Nat) (c : Word) : Selection :=
  if card.isEmpty then .emptyCard
  else
    match (card.lap start).find? (·.1.eligible c) with
    | some (instruction, index) => .selected index instruction
    | none => .noneEligible

end CardMachine
