import CardMachine.Instruction

/-!
# Lines of card source

A line of card source opens a card, names a position, or is an instruction, perhaps with a name in
front. The operand of an instruction is a value, a register, or a name to be resolved once the whole
source is laid out.
-/

namespace CardMachine

/-- The operand of an instruction as it is written. -/
inductive Operand
  | literal (value : Word)
  | register (name : Register)
  | symbol (name : String)
  deriving DecidableEq

/-- An instruction as it is written. -/
structure WrittenInstruction where
  flag : Option Flag
  opcode : Opcode
  operand : Operand
  /-- The column of the operand, in bytes from 1. -/
  column : Nat
  deriving DecidableEq

/-- A line of card source. -/
inductive Line
  | blank
  /-- Opens a card. -/
  | card (name : Option String)
  /-- Names the position of the next instruction. -/
  | label (name : String)
  | instruction (label : Option String) (written : WrittenInstruction)
  deriving DecidableEq

/-- What is wrong with a line. -/
inductive LineFault
  | unknownMnemonic (text : String)
  | unknownDirective (name : String)
  | invalidOperand (text : String)
  | reservedName (name : String)
  | invalidName (name : String)
  | missingOperand
  | unexpectedToken (text : String)
  deriving DecidableEq

/-- The wording of a fault in a line. -/
def LineFault.message : LineFault → String
  | .unknownMnemonic text => s!"unknown mnemonic: {text}"
  | .unknownDirective name => s!"unknown directive: .{name}"
  | .invalidOperand text => s!"invalid operand: {text}"
  | .reservedName name => s!"reserved word used as a name: {name}"
  | .invalidName name => s!"invalid name: {name}"
  | .missingOperand => "missing operand"
  | .unexpectedToken text => s!"unexpected token: {text}"

/-- A fault in a line and its column, in bytes from 1. -/
structure LineError where
  column : Nat
  fault : LineFault
  deriving DecidableEq

end CardMachine
