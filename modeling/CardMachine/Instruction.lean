import CardMachine.Decimal.Numeral
import CardMachine.Opcode
import CardMachine.Register

/-!
# Instructions

An instruction is an opcode, one argument, and possibly a flag. The flag makes it conditional: it
may run only while register `C` has the sign the flag asks for.
-/

namespace CardMachine

/-- The sign that register `C` must have. -/
inductive Flag
  | neg | equ | pos
  deriving DecidableEq

namespace Flag

/-- All flags. -/
def all : List Flag := [.neg, .equ, .pos]

/-- The word a flag is written with. -/
def name : Flag → String
  | .neg => "NEG"
  | .equ => "EQU"
  | .pos => "POS"

/-- The flag written `text`. -/
def ofName? (text : String) : Option Flag :=
  all.find? (·.name = text)

/-- A flag is found under its own word and under no other text. -/
theorem ofName?_eq_some_iff {text : String} {f : Flag} : ofName? text = some f ↔ text = f.name := by
  constructor
  · intro h
    have found := List.find?_some h
    exact (of_decide_eq_true found).symm
  · rintro rfl
    cases f <;> rfl

/-- Does `c` have the sign the flag asks for? -/
def holds (c : Word) : Flag → Bool
  | .neg => c.toInt < 0
  | .equ => c.toInt = 0
  | .pos => 0 < c.toInt

/-- The byte a flag is saved as: the sign itself. -/
def byte : Flag → Int
  | .neg => -1
  | .equ => 0
  | .pos => 1

/-- The flag saved as `v`; any byte that is not 1 or -1 is read as `EQU`. -/
def ofByte (v : Int) : Flag :=
  if v = -1 then .neg else if v = 1 then .pos else .equ

end Flag

/-- The argument of an instruction: a value, or a register read when the instruction runs. -/
inductive Argument
  | literal (value : Word)
  | register (name : Register)
  deriving DecidableEq

namespace Argument

/-- The value of an argument. -/
def resolve (rs : Registers) : Argument → Word
  | .literal v => v
  | .register r => rs.get r

/-- An argument as it is written. -/
def text : Argument → String
  | .literal v => Decimal.text v.toInt
  | .register r => r.name

end Argument

/-- One line of a card. -/
structure Instruction where
  opcode : Opcode
  argument : Argument
  flag : Option Flag := none
  deriving DecidableEq

namespace Instruction

/-- May the instruction run while `C` holds `c`? -/
def eligible (i : Instruction) (c : Word) : Bool :=
  match i.flag with
  | none => true
  | some f => f.holds c

/-- An instruction as it is written: flag, mnemonic, argument, one space between them. -/
def text (i : Instruction) : String :=
  match i.flag with
  | none => i.opcode.mnemonic ++ " " ++ i.argument.text
  | some f => f.name ++ " " ++ i.opcode.mnemonic ++ " " ++ i.argument.text

end Instruction

end CardMachine
